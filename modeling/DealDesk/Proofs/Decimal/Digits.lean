import DealDesk.Json.Tree
import Mathlib.Tactic.Ring

/-!
# Digits and what they stand for

* `ofDigits_append`, `ofDigits_toDigits` — the number that digits stand for.
* `toDigits_mul_pow` — a power of ten adds zeros.
* `Scientific.Normal` — a decimal whose coefficient does not end with a zero.

`normal_mul_pow` is the main result: a decimal is put into its normal form, wherever its point is.
-/

namespace DealDesk

namespace Decimal

variable {n k : Nat} {cs : List Char}

theorem ofDigits_eq (cs : List Char) : ofDigits cs = Nat.ofDigitChars 10 cs 0 :=
  Nat.ofDigitChars_eq_foldl.symm

theorem ofDigits_append (cs more : List Char) :
    ofDigits (cs ++ more) = 10 ^ more.length * ofDigits cs + ofDigits more := by
  simp only [ofDigits_eq]
  rw [Nat.ofDigitChars_append, Nat.ofDigitChars_eq_ofDigitChars_zero]

theorem ofDigits_toDigits (n : Nat) : ofDigits (Nat.toDigits 10 n) = n := by
  rw [ofDigits_eq, Nat.ofDigitChars_ten_toDigits]

theorem ofDigits_zeros (k : Nat) : ofDigits (zeros k) = 0 := by
  rw [ofDigits_eq, zeros, Nat.ofDigitChars_replicate_zero, Nat.mul_zero]

theorem isDigit_of_mem_toDigits {c : Char} (h : c ∈ Nat.toDigits 10 n) : isDigit c = true := by
  have hc := Nat.isDigit_of_mem_toDigits (by decide) (by decide) h
  simp only [Char.isDigit, Bool.and_eq_true, decide_eq_true_eq] at hc
  simp only [isDigit, Bool.and_eq_true, decide_eq_true_eq]
  exact ⟨hc.1, hc.2⟩

/-- The last digit says what is left after a division by ten. -/
theorem toDigits_eq_concat (n : Nat) :
    ∃ front, Nat.toDigits 10 n = front ++ [Nat.digitChar (n % 10)] := by
  rw [Nat.toDigits_eq_if (by decide)]
  split
  · rename_i hlt
    exact ⟨[], by rw [Nat.mod_eq_of_lt hlt, List.nil_append]⟩
  · exact ⟨_, rfl⟩

/-- Only zero is written with a zero in front. -/
theorem head_toDigits (h : 0 < n) : ∃ c rest, Nat.toDigits 10 n = c :: rest ∧ c ≠ '0' := by
  induction n using Nat.strongRecOn with
  | ind n ih =>
    rw [Nat.toDigits_eq_if (by decide)]
    split
    · rename_i hlt
      refine ⟨_, [], rfl, fun he => ?_⟩
      rw [Nat.digitChar_eq_zero] at he
      omega
    · rename_i hle
      obtain ⟨c, rest, hcs, hc⟩ := ih (n / 10) (by omega) (by omega)
      exact ⟨c, rest ++ [Nat.digitChar (n % 10)], by rw [hcs, List.cons_append], hc⟩

/-- A power of ten adds zeros. -/
theorem toDigits_mul_pow (h : 0 < n) (k : Nat) :
    Nat.toDigits 10 (n * 10 ^ k) = Nat.toDigits 10 n ++ zeros k := by
  induction k with
  | zero => simp [zeros]
  | succ k ih =>
    have hpos : 0 < n * 10 ^ k := Nat.mul_pos h (Nat.pow_pos (by decide))
    have hmul : n * 10 ^ (k + 1) = 10 * (n * 10 ^ k) + 0 := by rw [Nat.pow_succ]; ring
    rw [hmul, ← Nat.toDigits_append_toDigits (by decide) hpos (by decide), ih, List.append_assoc,
      zeros, zeros, List.replicate_succ']
    rfl

/-! ## Normal forms -/

/-- The coefficient does not end with a zero, or it is all there is. -/
def Scientific.Normal (d : Scientific) : Prop := d = ⟨0, 0⟩ ∨ d.coefficient % 10 ≠ 0

/-- The digits of a normal decimal are all significant. -/
theorem significant_mul_pow (h : n % 10 ≠ 0) (k : Nat) (e : Int) :
    significant ⟨n * 10 ^ k, e⟩ = (Nat.toDigits 10 n, (Nat.toDigits 10 n).length + k + e) := by
  have hpos : 0 < n := by omega
  obtain ⟨front, hfront⟩ := toDigits_eq_concat n
  have hlast : Nat.digitChar (n % 10) ≠ '0' := by
    intro he
    rw [Nat.digitChar_eq_zero] at he
    exact h he
  have hkept : ((Nat.toDigits 10 n ++ zeros k).reverse.dropWhile (· = '0')).reverse =
      Nat.toDigits 10 n := by
    rw [List.reverse_append, zeros, List.reverse_replicate, List.dropWhile_append_of_pos,
      hfront, List.reverse_append, List.reverse_singleton, List.singleton_append,
      List.dropWhile_cons_of_neg (by simpa using hlast)]
    · simp
    · intro c hc
      simp [List.eq_of_mem_replicate hc]
  simp only [significant, toDigits_mul_pow hpos, hkept]
  rw [List.length_append, zeros, List.length_replicate]
  push_cast
  rfl

/-- **Wherever its point is, a decimal is put into its normal form.** -/
theorem normal_mul_pow (h : n % 10 ≠ 0) (k : Nat) (e : Int) :
    Numeral.normal ⟨n * 10 ^ k, e⟩ = ⟨n, e + k⟩ := by
  have hpos : 0 < n * 10 ^ k := Nat.mul_pos (by omega) (Nat.pow_pos (by decide))
  simp only [Numeral.normal, significant_mul_pow h]
  rw [if_neg (by omega), ofDigits_toDigits]
  congr 1
  omega

theorem normal_zero (e : Int) : Numeral.normal ⟨0, e⟩ = ⟨0, 0⟩ := by
  simp [Numeral.normal]

/-- Every number but zero is one that does not end with a zero, times a power of ten. -/
theorem exists_mul_pow (h : n ≠ 0) : ∃ m k, m % 10 ≠ 0 ∧ n = m * 10 ^ k := by
  induction n using Nat.strongRecOn with
  | ind n ih =>
    by_cases hn : n % 10 = 0
    · obtain ⟨m, k, hm, he⟩ := ih (n / 10) (by omega) (by omega)
      refine ⟨m, k + 1, hm, ?_⟩
      rw [Nat.pow_succ, ← Nat.mul_assoc, ← he]
      omega
    · exact ⟨n, 0, hn, (Nat.mul_one n).symm⟩

theorem normal_isNormal (d : Scientific) : (Numeral.normal d).Normal := by
  obtain ⟨n, e⟩ := d
  by_cases hn : n = 0
  · subst hn
    exact .inl (normal_zero e)
  · obtain ⟨m, k, hm, rfl⟩ := exists_mul_pow hn
    rw [normal_mul_pow hm]
    exact .inr hm

end Decimal

end DealDesk
