import DealDesk.Proofs.Desk.Efforts
import DealDesk.Proofs.Limbs

/-!
# The waits between the calls for an order

* `RetryRule.waits_increase` — no wait for an order is shorter than one before it.
* `Stands.of_unbroken` — unless the work on an order breaks off, what was done for it is what its
  rule asks for, with one call more than its result counts retries.

`backoff_paces_retries` is the main result: the wait before a retry is the base, doubled so many
times, up to the cap, also where a machine works it out, and before each retry a worker waits so.
-/

namespace DealDesk

/-- The waits never get shorter, as far as a 32-bit number counts them. -/
theorem RetryRule.waits_increase {r : RetryRule} {retries : Nat} (h : retries < 2 ^ 32) :
    (r.waits retries).Pairwise fun a b => a.nanos ≤ b.nanos := by
  rw [waits, List.pairwise_map]
  refine List.pairwise_lt_range.imp_of_mem fun {k m} _ hm hlt => r.backoff_mono ?_
  have hm := List.mem_range.1 hm
  rw [UInt32.le_iff_toNat_le, UInt32.toNat_ofNat', UInt32.toNat_ofNat',
    Nat.mod_eq_of_lt (by omega), Nat.mod_eq_of_lt (by omega)]
  omega

namespace Desk

variable {rule : RetryRule} {item : Item} {s : Settlement} {done : List Effort}

theorem Stands.of_unbroken (h : Stands rule (.recording item s) done)
    (hc : done.any Effort.isCleared = true) (hb : done.any Effort.isBreak = false) :
    ∃ replies : List (Reply Outcome),
      replies.length = s.retries.toNat + 1 ∧ done = rule.efforts replies := by
  cases h with
  | objected => cases hc
  | unquoted => cases hc
  | @settled _ _ replies outcome h =>
    refine ⟨replies ++ [.answer outcome], ?_, rfl⟩
    rw [List.length_append, List.length_singleton, h.count]
  | lost _ h hretries hstatus herror =>
    rw [h.any_isBreak] at hb
    cases hb
  | overrun _ h hnumber hretries hstatus herror =>
    simp [Effort.isBreak] at hb

/-- **Backoff paces the retries.** The wait before a retry is the base times a power of two, up to
the cap: the exponent is one less than the retry's number, but not below zero and at most 31, so a
32-bit shift gives the power. In seconds and nanoseconds it comes to the same, with what the
nanoseconds carry over and with the longest span where the seconds overflow. It is never longer than
the cap, and never shorter for a later retry. In every run, for an order that the gate let through
and the work on which did not break off, what is done is what the rule asks for: as many waits as the
result counts retries, each between two calls, the `k`-th the one before retry `k`, and none shorter
than one before it. -/
theorem backoff_paces_retries :
    (∀ (r : RetryRule) (attempt : UInt32),
      let e := min (max attempt.toNat 1 - 1) 31
      ((1 : UInt32) <<< UInt32.ofNat e).toNat = 2 ^ e ∧
      (r.backoff attempt).nanos = min (r.base.nanos * 2 ^ e) r.cap.nanos ∧
      (r.backoff attempt).limbs =
        (r.base.limbs.times ((1 : UInt32) <<< UInt32.ofNat e)).shorter r.cap.limbs ∧
      (r.backoff attempt).nanos ≤ r.cap.nanos ∧
      ∀ later, attempt ≤ later → (r.backoff attempt).nanos ≤ (r.backoff later).nanos) ∧
    ∀ {β : Type} {b : Broker β} {settings : Settings} {s₀ : β} {register : Register}
      {programs : List (List Call)} {schedule : List Turn} {d₀ d : Desk β} {tr : Trace}
      {item : Item} {s : Settlement},
      open? settings s₀ register = .ok d₀ →
      (d₀.withCallers programs).follow b schedule = some (d, tr) →
      Settled d tr (item, s) → s.isOriginal = true →
      tr.hasCleared item.order.id = true → tr.hasBroken item.order.id = false →
      (∃ replies : List (Reply Outcome), replies.length = s.retries.toNat + 1 ∧
        tr.efforts item.order.id = settings.retryRule.efforts replies) ∧
      tr.pauses item.order.id = settings.retryRule.waits s.retries.toNat ∧
      (tr.pauses item.order.id).length = s.retries.toNat ∧
      (tr.pauses item.order.id).Pairwise fun a b => a.nanos ≤ b.nanos := by
  refine ⟨fun r attempt => ?_, ?_⟩
  · dsimp only
    rw [← RetryRule.doublings_eq]
    exact ⟨RetryRule.toNat_shiftLeft (RetryRule.doublings_lt attempt), r.nanos_backoff attempt,
      r.limbs_backoff attempt, r.backoff_le_cap attempt, fun later => r.backoff_mono⟩
  · intro β b settings s₀ register programs schedule d₀ d tr item s hopen hrun hs ho hc hb
    obtain ⟨replies, hlength, hefforts⟩ :=
      ((follow_pursued hopen hrun).settled hs ho).of_unbroken hc hb
    have hpauses : tr.pauses item.order.id = settings.retryRule.waits s.retries.toNat := by
      rw [Trace.pauses, hefforts, RetryRule.filterMap_pause_efforts, hlength, Nat.add_sub_cancel]
    refine ⟨⟨replies, hlength, hefforts⟩, hpauses, ?_, ?_⟩
    · rw [hpauses, RetryRule.waits, List.length_map, List.length_range]
    · rw [hpauses]
      exact RetryRule.waits_increase s.retries.toNat_lt

theorem backoff_paces_retries_filledOnRetry :
    (RetryRule.standard.backoff 40).nanos = 10 * Span.nanosPerSecond ∧
    ∃ d, ∃ tr : Trace, ∃ e ∈ tr.recorded, filledOnRetry = some (d, tr) ∧
      tr.pauses e.1.order.id = [Span.ofMillis 100] := by
  obtain ⟨harithmetic, hruns⟩ := backoff_paces_retries
  obtain ⟨d, tr, e, hmem, hrun, ho, hretries, hcleared, hbroken⟩ := filledOnRetry_ends
  obtain ⟨-, hpauses, -⟩ := hruns open?_lossy hrun (.inl hmem) ho hcleared hbroken
  refine ⟨?_, d, tr, e, hmem, hrun, ?_⟩
  · rw [(harithmetic RetryRule.standard 40).2.1]
    decide +kernel
  · rw [hpauses, hretries]
    decide +kernel

end Desk

end DealDesk
