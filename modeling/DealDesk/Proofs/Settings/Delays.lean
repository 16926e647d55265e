import DealDesk.Proofs.Limbs
import DealDesk.Proofs.Retry
import DealDesk.Proofs.Settings.Layering

/-!
# The delays that settings ask for

* `RetryRule.nanos_backoff_succ` — from one retry to the next the wait doubles, or it stays.
* `Settings.nanos_backoff` — the wait before a retry, from the milliseconds of the settings.
* `Settings.Doubles` — a retry waits for the base, doubled for each earlier retry, up to the cap.
* `Settings.check_make_eq_ok_iff`, `nanos_backoff_make` — what becomes of a base delay that is given.

`waits_double_31_times` and `make_keeps_or_refuses` are the main results: the waits double until they
come to the cap, for 31 times, and a base delay is kept or refused, as far as 64 bits count its
milliseconds. Beyond that neither holds: `patient_stops_doubling`, `make_shortens_a_base`.
-/

namespace DealDesk

/-- Milliseconds that 64 bits count make a span as long as they say. -/
theorem Span.nanos_ofMillis {n : Nat} (h : n < 2 ^ 64) : (ofMillis n).nanos = n * nanosPerMilli := by
  unfold ofMillis ofNanos
  have hmax : maxNanos = 2 ^ 64 * nanosPerSecond - 1 := rfl
  simp only [hmax, nanosPerSecond, nanosPerMilli]
  omega

/-- From one retry to the next the wait doubles, up to the cap; from the 32nd on it stays. -/
theorem RetryRule.nanos_backoff_succ (r : RetryRule) {attempt : UInt32} (hpos : 1 ≤ attempt)
    (hlt : attempt < r.maxRetries) : (r.backoff (attempt + 1)).nanos =
      if attempt < 32 then min (2 * (r.backoff attempt).nanos) r.cap.nanos
      else (r.backoff attempt).nanos := by
  have hnext := toNat_add_one hlt
  have hone : 1 ≤ attempt.toNat := UInt32.le_iff_toNat_le.1 hpos
  rw [nanos_backoff, nanos_backoff]
  by_cases h : attempt < 32
  · have hlt32 : attempt.toNat < 32 := UInt32.lt_iff_toNat_lt.1 h
    have hdouble : doublings (attempt + 1) = doublings attempt + 1 := by
      unfold doublings
      omega
    have hproduct : r.base.nanos * 2 ^ (doublings attempt + 1) =
        2 * (r.base.nanos * 2 ^ doublings attempt) := by
      rw [Nat.pow_succ, ← Nat.mul_assoc, Nat.mul_comm]
    rw [if_pos h, hdouble, hproduct]
    omega
  · have hle32 : 32 ≤ attempt.toNat := UInt32.le_iff_toNat_le.1 (UInt32.not_lt.1 h)
    have hsame : doublings (attempt + 1) = doublings attempt := by
      unfold doublings
      omega
    rw [if_neg h, hsame]

namespace Settings

variable {s : Settings} {attempt : UInt32}

/-! ## The wait before a retry -/

/-- The wait before a retry, from the milliseconds of base and cap. -/
theorem nanos_backoff (s : Settings) (attempt : UInt32) : (s.retryRule.backoff attempt).nanos =
    min (s.retryBaseMs.toNat * 2 ^ RetryRule.doublings attempt) s.retryMaxMs.toNat *
      Span.nanosPerMilli := by
  have hbase : s.retryRule.base.nanos = s.retryBaseMs.toNat * Span.nanosPerMilli :=
    Span.nanos_ofMillis s.retryBaseMs.toNat_lt
  have hcap : s.retryRule.cap.nanos = s.retryMaxMs.toNat * Span.nanosPerMilli :=
    Span.nanos_ofMillis s.retryMaxMs.toNat_lt
  rw [RetryRule.nanos_backoff, hbase, hcap, Nat.mul_right_comm, Nat.mul_min_mul_right]

/-- The base, doubled for each retry before this one, up to the cap. -/
def doubledMs (s : Settings) (attempt : UInt32) : Nat :=
  min (s.retryBaseMs.toNat * 2 ^ (attempt.toNat - 1)) s.retryMaxMs.toNat

/-- Does retry `attempt` wait for as long as doubling makes it? -/
def Doubles (s : Settings) (attempt : UInt32) : Prop :=
  (s.retryRule.backoff attempt).nanos = s.doubledMs attempt * Span.nanosPerMilli

/-- Further doublings make no difference to a wait that is zero or has come to the cap. -/
theorem min_doubled_iff {base cap m n : Nat} (h : m < n) :
    min (base * 2 ^ m) cap = min (base * 2 ^ n) cap ↔ base = 0 ∨ cap ≤ base * 2 ^ m := by
  have hpow : 2 ^ m < 2 ^ n := Nat.pow_lt_pow_right (by decide) h
  rcases Nat.eq_zero_or_pos base with rfl | hpos
  · simp
  · have hlt : base * 2 ^ m < base * 2 ^ n := Nat.mul_lt_mul_of_pos_left hpow hpos
    omega

/-- **A wait is the doubled base** if no more than 31 doublings are asked for, or they are enough to
come to the cap. -/
theorem doubles_iff : s.Doubles attempt ↔
    attempt ≤ 32 ∨ s.retryBaseMs = 0 ∨ s.retryMaxMs.toNat ≤ s.retryBaseMs.toNat * 2 ^ 31 := by
  have hmillis : 0 < Span.nanosPerMilli := by decide
  unfold Doubles doubledMs
  rw [nanos_backoff, Nat.mul_left_inj (Nat.ne_of_gt hmillis), UInt32.le_iff_toNat_le,
    ← UInt64.toNat_inj]
  by_cases hle : attempt.toNat ≤ 32
  · have hall : RetryRule.doublings attempt = attempt.toNat - 1 := by
      unfold RetryRule.doublings
      omega
    rw [hall]
    exact iff_of_true rfl (.inl hle)
  · have hstop : RetryRule.doublings attempt = 31 := by
      unfold RetryRule.doublings
      omega
    have hnot : ¬attempt.toNat ≤ UInt32.toNat 32 := hle
    rw [hstop, min_doubled_iff (by omega : 31 < attempt.toNat - 1), or_iff_right hnot]
    rfl

/-- **The waits double 31 times.** Whatever the settings, retry `attempt` waits for the base, doubled
for each earlier retry, up to the cap, if and only if it is among the first 32 or the base is zero or
31 doublings are enough to come to the cap. From one retry to the next the wait doubles, up to the
cap; but after the 32nd retry it stays as it is. So settings have all their retries wait for the
doubled base if and only if they allow for no more than 32 retries, or the base is zero, or 31
doublings are enough to come to the cap. -/
theorem waits_double_31_times (s : Settings) :
    (∀ attempt, s.Doubles attempt ↔
      attempt ≤ 32 ∨ s.retryBaseMs = 0 ∨ s.retryMaxMs.toNat ≤ s.retryBaseMs.toNat * 2 ^ 31) ∧
    (∀ attempt, 1 ≤ attempt → attempt < s.maxRetries →
      (s.retryRule.backoff (attempt + 1)).nanos =
        if attempt < 32 then min (2 * (s.retryRule.backoff attempt).nanos) s.retryRule.cap.nanos
        else (s.retryRule.backoff attempt).nanos) ∧
    ((∀ attempt, 1 ≤ attempt → attempt ≤ s.maxRetries → s.Doubles attempt) ↔
      s.maxRetries ≤ 32 ∨ s.retryBaseMs = 0 ∨
        s.retryMaxMs.toNat ≤ s.retryBaseMs.toNat * 2 ^ 31) := by
  refine ⟨fun attempt => doubles_iff,
    fun attempt hpos hlt => s.retryRule.nanos_backoff_succ hpos hlt, fun h => ?_, fun h => ?_⟩
  · by_cases hone : 1 ≤ s.maxRetries
    · exact doubles_iff.1 (h s.maxRetries hone (UInt32.le_refl _))
    · rw [UInt32.le_iff_toNat_le, UInt32.toNat_one] at hone
      exact .inl (UInt32.le_iff_toNat_le.2 (by omega))
  · intro attempt _ hle
    exact doubles_iff.2 (h.imp_left (UInt32.le_trans hle))

/-- A base of one millisecond, and a cap of more than a hundred days. -/
def patient : Settings :=
  { standard with maxRetries := 33, retryBaseMs := 1, retryMaxMs := 10000000000 }

/-- The cap is twice as long as the wait before retry 33, which is no longer than the one before. -/
theorem patient_stops_doubling : patient.check = .ok () ∧ 33 ≤ patient.maxRetries ∧
    patient.doubledMs 33 = 2 ^ 32 ∧
    (patient.retryRule.backoff 33).nanos = 2 ^ 31 * Span.nanosPerMilli ∧
    patient.retryRule.backoff 33 = patient.retryRule.backoff 32 ∧ ¬patient.Doubles 33 := by
  refine ⟨rfl, by decide, by decide +kernel, by decide +kernel, by decide +kernel, ?_⟩
  rw [doubles_iff]
  decide +kernel

/-! ## The base delay that is given -/

section Make

variable {workers : UInt64} {maxRetries : UInt32} {base : Span}

/-- What is kept of a base delay. -/
theorem toNat_retryBaseMs_make :
    (make workers maxRetries base).retryBaseMs.toNat = base.millis % 2 ^ 64 :=
  UInt64.toNat_ofNat'

theorem check_make_eq_ok_iff (hw : 1 ≤ workers) (maxRetries : UInt32) (base : Span) :
    (make workers maxRetries base).check = .ok () ↔ base.millis % 2 ^ 64 ≤ 10000 := by
  rw [check_eq_ok_iff, and_iff_right (show 1 ≤ (make workers maxRetries base).workers from hw),
    UInt64.le_iff_toNat_le, toNat_retryBaseMs_make]
  rfl

/-- The check names the base delay that is kept. -/
theorem check_make_eq_error (hw : 1 ≤ workers) (h : 10000 < base.millis % 2 ^ 64) :
    (make workers maxRetries base).check =
      .error (.baseAboveCap (UInt64.ofNat base.millis) 10000) := by
  have hzero : workers ≠ 0 := by
    rintro rfl
    exact absurd hw (by decide)
  have hlt : (10000 : UInt64) < UInt64.ofNat base.millis := by
    rw [UInt64.lt_iff_toNat_lt, UInt64.toNat_ofNat']
    exact h
  show (if workers = 0 then _ else if (10000 : UInt64) < UInt64.ofNat base.millis then _ else _) = _
  rw [if_neg hzero, if_pos hlt]
  rfl

/-- The first wait is the base delay that is kept. -/
theorem nanos_backoff_make (h : base.millis % 2 ^ 64 ≤ 10000) :
    ((make workers maxRetries base).retryRule.backoff 1).nanos =
      base.millis % 2 ^ 64 * Span.nanosPerMilli := by
  have hcap : (make workers maxRetries base).retryMaxMs.toNat = 10000 := rfl
  have hnone : RetryRule.doublings 1 = 0 := rfl
  rw [nanos_backoff, toNat_retryBaseMs_make, hcap, hnone, Nat.pow_zero, Nat.mul_one,
    Nat.min_eq_left h]

/-- **A base delay is kept or refused, as far as 64 bits count its milliseconds.** Settings made
with a base delay have it in whole milliseconds, and of those the remainder modulo `2 ^ 64`. They
pass the check if and only if that is within the cap of ten seconds; then it is the wait before the
first retry, and else the check names it. So the base delay itself decides, and is the wait, if and
only if its milliseconds are below `2 ^ 64` or what is left of them is above the cap: a longer one
of which less is left passes as a shorter one. -/
theorem make_keeps_or_refuses (hw : 1 ≤ workers) (maxRetries : UInt32) (base : Span) :
    let s := make workers maxRetries base
    let kept := base.millis % 2 ^ 64
    (s.check = .ok () ↔ kept ≤ 10000) ∧
    (10000 < kept → s.check = .error (.baseAboveCap (UInt64.ofNat base.millis) 10000)) ∧
    (s.check = .ok () → (s.retryRule.backoff 1).nanos = kept * Span.nanosPerMilli) ∧
    ((s.check = .ok () ↔ base.millis ≤ 10000) ∧
        (s.check = .ok () → (s.retryRule.backoff 1).nanos = base.millis * Span.nanosPerMilli) ↔
      base.millis < 2 ^ 64 ∨ 10000 < kept) := by
  have hcheck := check_make_eq_ok_iff hw maxRetries base
  refine ⟨hcheck, check_make_eq_error hw, fun h => nanos_backoff_make (hcheck.1 h), ?_⟩
  rw [hcheck]
  constructor
  · rintro ⟨hdecides, -⟩
    omega
  · intro h
    refine ⟨by omega, fun hle => ?_⟩
    -- with a remainder within the cap, the milliseconds are below the limit and all kept
    have hall : base.millis % 2 ^ 64 = base.millis := by omega
    rw [nanos_backoff_make hle, hall]

end Make

/-- One and a half milliseconds are kept as one. -/
theorem make_keeps_or_refuses_fraction :
    (make 4 3 (Span.ofNanos 1500000)).check = .ok () ∧
    ((make 4 3 (Span.ofNanos 1500000)).retryRule.backoff 1).nanos = Span.nanosPerMilli := by
  have hworkers : (1 : UInt64) ≤ 4 := by decide
  obtain ⟨hcheck, -, hwait, -⟩ := make_keeps_or_refuses hworkers 3 (Span.ofNanos 1500000)
  have hok := hcheck.2 (by decide +kernel)
  exact ⟨hok, (hwait hok).trans (by decide +kernel)⟩

/-- More than five hundred million years. -/
def eons : Span := Span.ofMillis (2 ^ 64)

/-- So long a base delay passes the check, and is no wait at all. -/
theorem make_shortens_a_base : 10000 < eons.millis ∧ (make 4 3 eons).check = .ok () ∧
    ((make 4 3 eons).retryRule.backoff 1).nanos = 0 := by
  decide +kernel

end Settings

end DealDesk
