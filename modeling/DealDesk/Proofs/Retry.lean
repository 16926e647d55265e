import DealDesk.Retry

/-!
# When there is another call

* `RetryRule.next_again_iff` — an order is tried again after a failure that the rule retries, as
  long as retries are left, and after nothing else.
* `RetryRule.retries_of_settle` — a settlement counts the calls before the last one.
* `RetryRule.toNat_add_one` — the count of the calls does not go round.
* `RetryRule.ordinal?_eq_none_iff` — only after `mostCalls` calls is there no number for the next.
-/

namespace DealDesk

namespace RetryRule

variable {r : RetryRule} {now : Int64} {o : Order} {attempt number : UInt32} {outcome : Outcome}
  {failure : Failure}

/-- **Only a failure that the rule retries leads to another call**, and only while retries are
left. -/
theorem next_again_iff : r.next now o attempt outcome = .again failure ↔
    outcome = .failed failure ∧ r.retries failure = true ∧ attempt < r.maxRetries := by
  cases outcome with
  | filled fill => simp [next]
  | failed f =>
    by_cases hr : r.retries f = true
    · by_cases hm : r.maxRetries ≤ attempt
      · have hlt : ¬attempt < r.maxRetries := UInt32.not_lt.2 hm
        simp [next, hr, hm, hlt]
      · have hlt : attempt < r.maxRetries := UInt32.not_le.1 hm
        simp only [next, hr, hm, Bool.not_true, Bool.false_eq_true, if_false, Next.again.injEq,
          Outcome.failed.injEq]
        constructor
        · rintro rfl
          exact ⟨rfl, hr, hlt⟩
        · exact fun h => h.1
    · constructor
      · intro h
        simp [next, hr] at h
      · rintro ⟨he, hf, -⟩
        cases he
        exact absurd hf hr

/-- There are retries left when the rule says to try again. -/
theorem lt_of_again (h : r.next now o attempt outcome = .again failure) : attempt < r.maxRetries :=
  (next_again_iff.1 h).2.2

/-- A settlement counts the calls before the last one. -/
theorem retries_of_settle {s : Settlement} (h : r.next now o attempt outcome = .settle s) :
    s.retries = attempt := by
  cases outcome with
  | filled fill => cases h; rfl
  | failed failure =>
    simp only [next] at h
    split at h
    · cases h; rfl
    · split at h
      · cases h; rfl
      · cases h

theorem toNat_add_one (h : attempt < r.maxRetries) : (attempt + 1).toNat = attempt.toNat + 1 := by
  have hlt : attempt.toNat < r.maxRetries.toNat := UInt32.lt_iff_toNat_lt.1 h
  have hmax := r.maxRetries.toNat_lt
  rw [UInt32.toNat_add, UInt32.toNat_one, Nat.mod_eq_of_lt (by omega)]

/-- Another call is still one of those that the rule allows. -/
theorem add_one_le_of_again (h : r.next now o attempt outcome = .again failure) :
    attempt + 1 ≤ r.maxRetries := by
  have hlt := lt_of_again h
  rw [UInt32.le_iff_toNat_le, toNat_add_one hlt]
  exact UInt32.lt_iff_toNat_lt.1 hlt

/-! ## Numbers of calls -/

/-- The calls that 32 bits have numbers for. -/
def mostCalls : Nat := UInt32.size - 1

theorem one_lt_mostCalls : 1 < mostCalls := by decide

theorem toNat_le_mostCalls (n : UInt32) : n.toNat ≤ mostCalls :=
  Nat.le_sub_one_of_lt n.toNat_lt

theorem eq_max_iff {n : UInt32} : n = 0xFFFFFFFF ↔ n.toNat = mostCalls :=
  UInt32.toNat_inj.symm

theorem ordinal?_eq_none_iff : ordinal? attempt = none ↔ attempt.toNat = mostCalls := by
  rw [← eq_max_iff, ordinal?]
  simp

theorem toNat_lt_of_ordinal (h : ordinal? attempt = some number) :
    attempt.toNat < mostCalls := by
  refine Nat.lt_of_le_of_ne (toNat_le_mostCalls attempt) fun he => ?_
  rw [ordinal?_eq_none_iff.2 he] at h
  cases h

/-- Only a rule that allows for the most retries that 32 bits can say comes to a call without a
number. -/
theorem maxRetries_of_unnumbered (h : ordinal? attempt = none) (hle : attempt ≤ r.maxRetries) :
    r.maxRetries = 0xFFFFFFFF := by
  rw [UInt32.le_iff_toNat_le, ordinal?_eq_none_iff.1 h] at hle
  exact eq_max_iff.2 (Nat.le_antisymm (toNat_le_mostCalls _) hle)

end RetryRule

end DealDesk
