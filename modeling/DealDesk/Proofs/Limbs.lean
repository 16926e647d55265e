import DealDesk.Retry
import Mathlib.Algebra.Group.Nat.Defs

/-!
# Spans in machine words

* `Limbs` — a span as a machine keeps it: whole seconds in 64 bits, the nanoseconds beyond them
  in 32.
* `Limbs.times` multiplies them by a 32-bit number: the nanoseconds carry over into the seconds, and
  where the seconds overflow the product is the longest span. `Limbs.shorter` compares the seconds
  first.
* `Span.limbs_scale`, `Span.limbs_shorter` — both do what spans do.
* `RetryRule.nanos_backoff`, `RetryRule.limbs_backoff` — the wait before a retry, as a number and as
  a machine works it out; `RetryRule.backoff_mono` and `RetryRule.backoff_le_cap` follow.
-/

namespace DealDesk

/-! ## Numbers of 64 bits -/

/-- The product, unless it overflows. -/
def checkedMul (a b : UInt64) : Option UInt64 :=
  if a.toNat * b.toNat < 2 ^ 64 then some (a * b) else none

/-- The sum, unless it overflows. -/
def checkedAdd (a b : UInt64) : Option UInt64 :=
  if a.toNat + b.toNat < 2 ^ 64 then some (a + b) else none

/-! ## Limbs -/

/-- A length of time in machine words. -/
structure Limbs where
  seconds : UInt64
  /-- The nanoseconds beyond the whole seconds. -/
  subsecond : UInt32
  deriving DecidableEq

namespace Limbs

def longest : Limbs := ⟨0xFFFFFFFFFFFFFFFF, 999999999⟩

/-- Multiplies, and stops at the longest span. -/
def times (l : Limbs) (n : UInt32) : Limbs :=
  let nanos := l.subsecond.toUInt64 * n.toUInt64
  let seconds := (checkedMul l.seconds n.toUInt64).bind fun s => checkedAdd s (nanos / 1000000000)
  match seconds with
  | some s => ⟨s, (nanos % 1000000000).toUInt32⟩
  | none => longest

/-- The shorter of two; seconds are compared first. -/
def shorter (a b : Limbs) : Limbs :=
  if a.seconds < b.seconds ∨ a.seconds = b.seconds ∧ a.subsecond ≤ b.subsecond then a else b

variable {l : Limbs} {n : UInt32}

theorem toNat_nanos (h : l.subsecond.toNat < Span.nanosPerSecond) (n : UInt32) :
    (l.subsecond.toUInt64 * n.toUInt64).toNat = l.subsecond.toNat * n.toNat := by
  have hn := n.toNat_lt
  have hbound : l.subsecond.toNat * n.toNat < 1000000000 * 2 ^ 32 :=
    Nat.mul_lt_mul'' h hn
  rw [UInt64.toNat_mul, UInt32.toNat_toUInt64, UInt32.toNat_toUInt64, Nat.mod_eq_of_lt (by omega)]

/-- The seconds with what the nanoseconds carry over, unless they overflow. -/
theorem seconds_times (h : l.subsecond.toNat < Span.nanosPerSecond) (n : UInt32) :
    (checkedMul l.seconds n.toUInt64).bind (fun s =>
      checkedAdd s (l.subsecond.toUInt64 * n.toUInt64 / 1000000000)) =
    let seconds := l.seconds.toNat * n.toNat +
      l.subsecond.toNat * n.toNat / Span.nanosPerSecond
    if seconds < 2 ^ 64 then some (UInt64.ofNat seconds) else none := by
  have hcarry : (l.subsecond.toUInt64 * n.toUInt64 / 1000000000).toNat =
      l.subsecond.toNat * n.toNat / Span.nanosPerSecond := by
    rw [UInt64.toNat_div, toNat_nanos h]
    rfl
  generalize l.subsecond.toUInt64 * n.toUInt64 / 1000000000 = carry at hcarry ⊢
  rw [← hcarry]
  unfold checkedMul
  rw [UInt32.toNat_toUInt64]
  by_cases hproduct : l.seconds.toNat * n.toNat < 2 ^ 64
  · have hexact : (l.seconds * n.toUInt64).toNat = l.seconds.toNat * n.toNat := by
      rw [UInt64.toNat_mul, UInt32.toNat_toUInt64, Nat.mod_eq_of_lt hproduct]
    rw [if_pos hproduct, Option.bind_some, checkedAdd, hexact]
    by_cases hsum : l.seconds.toNat * n.toNat + carry.toNat < 2 ^ 64
    · rw [if_pos hsum, if_pos hsum, Option.some.injEq, ← UInt64.toNat_inj, UInt64.toNat_add,
        hexact, UInt64.toNat_ofNat']
    · rw [if_neg hsum, if_neg hsum]
  · have hsum : ¬l.seconds.toNat * n.toNat + carry.toNat < 2 ^ 64 := by omega
    rw [if_neg hproduct, Option.bind_none, if_neg hsum]

end Limbs

/-! ## Spans -/

namespace Span

/-- The span in machine words. -/
def limbs (s : Span) : Limbs := ⟨UInt64.ofNat s.seconds, UInt32.ofNat s.subsecond⟩

variable {s : Span}

theorem nanos_eq (s : Span) : s.nanos = s.seconds * nanosPerSecond + s.subsecond :=
  (Nat.div_add_mod' ..).symm

theorem subsecond_lt (s : Span) : s.subsecond < nanosPerSecond := Nat.mod_lt _ (by decide)

theorem seconds_lt (s : Span) : s.seconds < 2 ^ 64 := by
  have h := s.nanos_le
  rw [nanos_eq] at h
  have hmax : maxNanos = 2 ^ 64 * nanosPerSecond - 1 := rfl
  rw [hmax, nanosPerSecond] at h
  omega

theorem toNat_seconds (s : Span) : s.limbs.seconds.toNat = s.seconds := by
  rw [limbs, UInt64.toNat_ofNat', Nat.mod_eq_of_lt s.seconds_lt]

theorem toNat_subsecond (s : Span) : s.limbs.subsecond.toNat = s.subsecond := by
  have h := s.subsecond_lt
  rw [nanosPerSecond] at h
  rw [limbs, UInt32.toNat_ofNat', Nat.mod_eq_of_lt (by omega)]

/-- The nanoseconds of a product, split into seconds and the rest. -/
theorem nanos_mul (s : Span) (n : Nat) : s.nanos * n =
    (s.seconds * n + s.subsecond * n / nanosPerSecond) * nanosPerSecond +
      s.subsecond * n % nanosPerSecond := by
  have hrest := Nat.div_add_mod' (s.subsecond * n) nanosPerSecond
  rw [nanos_eq, Nat.add_mul, Nat.add_mul, Nat.add_assoc, hrest, Nat.mul_right_comm]

theorem limbs_of_nanos {q r : Nat} (h : s.nanos = q * nanosPerSecond + r)
    (hr : r < nanosPerSecond) : s.limbs = ⟨UInt64.ofNat q, UInt32.ofNat r⟩ := by
  have hpos : 0 < nanosPerSecond := by decide
  have hsplit : s.nanos / nanosPerSecond = q ∧ s.nanos % nanosPerSecond = r :=
    (Nat.div_mod_unique hpos).2 ⟨by rw [h, Nat.mul_comm, Nat.add_comm], hr⟩
  rw [limbs, seconds, subsecond, hsplit.1, hsplit.2]

/-- **Machine words multiply as spans do.** -/
theorem limbs_scale (s : Span) (n : UInt32) : (s.scale n.toNat).limbs = s.limbs.times n := by
  have hlt : s.limbs.subsecond.toNat < nanosPerSecond := by
    rw [toNat_subsecond]
    exact s.subsecond_lt
  have hrest : s.subsecond * n.toNat % nanosPerSecond < nanosPerSecond :=
    Nat.mod_lt _ (by decide)
  have hscale := s.nanos_scale n.toNat
  rw [s.nanos_mul, maxNanos, Nat.pow_eq] at hscale
  have hnanos : (s.limbs.subsecond.toUInt64 * n.toUInt64 % 1000000000).toUInt32 =
      UInt32.ofNat (s.subsecond * n.toNat % nanosPerSecond) := by
    rw [← UInt32.toNat_inj, UInt64.toNat_toUInt32, UInt64.toNat_mod, Limbs.toNat_nanos hlt,
      toNat_subsecond, UInt32.toNat_ofNat']
    rfl
  unfold Limbs.times
  simp only [Limbs.seconds_times hlt, toNat_seconds, toNat_subsecond, hnanos]
  generalize s.seconds * n.toNat + s.subsecond * n.toNat / nanosPerSecond = q at hscale ⊢
  generalize s.subsecond * n.toNat % nanosPerSecond = r at hscale hrest ⊢
  by_cases hfits : q < 2 ^ 64
  · have hexact : (s.scale n.toNat).nanos = q * nanosPerSecond + r := by
      rw [nanosPerSecond] at hscale hrest ⊢
      omega
    rw [if_pos hfits, limbs_of_nanos hexact hrest]
  · have hlongest : (s.scale n.toNat).nanos = (2 ^ 64 - 1) * nanosPerSecond + 999999999 := by
      rw [nanosPerSecond] at hscale ⊢
      omega
    rw [if_neg hfits, limbs_of_nanos hlongest (by decide)]
    rfl

/-- **Machine words compare as spans do.** -/
theorem limbs_shorter (a b : Span) : (a.shorter b).limbs = a.limbs.shorter b.limbs := by
  have ha := a.nanos_eq
  have hb := b.nanos_eq
  have ha' := a.subsecond_lt
  have hb' := b.subsecond_lt
  have hle : a.nanos ≤ b.nanos ↔ a.limbs.seconds < b.limbs.seconds ∨
      a.limbs.seconds = b.limbs.seconds ∧ a.limbs.subsecond ≤ b.limbs.subsecond := by
    rw [UInt64.lt_iff_toNat_lt, ← UInt64.toNat_inj, UInt32.le_iff_toNat_le, toNat_seconds,
      toNat_seconds, toNat_subsecond, toNat_subsecond, ha, hb]
    rw [nanosPerSecond] at *
    omega
  unfold shorter Limbs.shorter
  simp only [hle]
  split <;> rfl

end Span

/-! ## The wait before a retry -/

namespace RetryRule

/-- The exponent that a machine works out: one less than the retry's number, but not below zero, and
at most 31. -/
theorem doublings_eq (attempt : UInt32) : doublings attempt = min (max attempt.toNat 1 - 1) 31 := by
  unfold doublings
  omega

theorem doublings_lt (attempt : UInt32) : doublings attempt < 32 :=
  Nat.lt_succ_of_le (Nat.min_le_right _ _)

/-- A shift by so many places does not overflow. -/
theorem toNat_shiftLeft {e : Nat} (h : e < 32) :
    ((1 : UInt32) <<< UInt32.ofNat e).toNat = 2 ^ e := by
  have hpow : 2 ^ e < 2 ^ 32 := Nat.pow_lt_pow_right (by decide) h
  rw [UInt32.toNat_shiftLeft, UInt32.toNat_ofNat', UInt32.toNat_one,
    Nat.mod_eq_of_lt (Nat.lt_trans h (by decide)), Nat.mod_eq_of_lt h, Nat.one_shiftLeft,
    Nat.mod_eq_of_lt hpow]

theorem nanos_backoff (r : RetryRule) (attempt : UInt32) : (r.backoff attempt).nanos =
    min (r.base.nanos * 2 ^ doublings attempt) r.cap.nanos := by
  have hcap := r.cap.nanos_le
  rw [backoff, Span.nanos_shorter, Span.nanos_scale, Nat.pow_eq]
  omega

/-- **A machine works out the wait**: a shift, a product of limbs and a comparison of limbs. -/
theorem limbs_backoff (r : RetryRule) (attempt : UInt32) : (r.backoff attempt).limbs =
    (r.base.limbs.times ((1 : UInt32) <<< UInt32.ofNat (doublings attempt))).shorter
      r.cap.limbs := by
  have hscale := r.base.limbs_scale ((1 : UInt32) <<< UInt32.ofNat (doublings attempt))
  rw [toNat_shiftLeft (doublings_lt attempt)] at hscale
  rw [backoff, Span.limbs_shorter, ← hscale, Nat.pow_eq]

theorem backoff_le_cap (r : RetryRule) (attempt : UInt32) :
    (r.backoff attempt).nanos ≤ r.cap.nanos := by
  rw [nanos_backoff]
  exact Nat.min_le_right _ _

theorem doublings_mono {k m : UInt32} (h : k ≤ m) : doublings k ≤ doublings m := by
  have hle := UInt32.le_iff_toNat_le.1 h
  unfold doublings
  omega

theorem backoff_mono (r : RetryRule) {k m : UInt32} (h : k ≤ m) :
    (r.backoff k).nanos ≤ (r.backoff m).nanos := by
  have hpow : 2 ^ doublings k ≤ 2 ^ doublings m :=
    Nat.pow_le_pow_right (by decide) (doublings_mono h)
  have hproduct := Nat.mul_le_mul_left r.base.nanos hpow
  rw [nanos_backoff, nanos_backoff]
  omega

end RetryRule

end DealDesk
