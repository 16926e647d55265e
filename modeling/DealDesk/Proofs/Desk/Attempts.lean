import DealDesk.Proofs.Desk.Protocol
import Mathlib.Data.Nat.Find

/-!
# How often an order is tried

* `RetryRule.closes` — after some outcomes there is no other call, however many retries are left.
* `RetryRule.LastCall` — the last of the calls that a given stream of outcomes asks for.
* `Concluded` — what is recorded for an order whose calls are answered by the stream.
* `Overran` — what is recorded if the last call has no number.
* `Calling` — where a worker stands after so many steps from its first call on, and what it did.
* `follow_schedule` — what every step keeps, with the schedule so far.
* `exists_follow_calls` — the steps are there to be taken.

`calls_end_exactly` is the main result: the calls for an order end with the last call of the stream,
and with nothing else than the settlement that belongs to it. There is one exception, and
`calls_run_out` is a case of it: a rule that allows for the most retries that 32 bits can say, and an
order that has used up all the numbers of its calls.
-/

namespace DealDesk

/-! ## The last call -/

namespace RetryRule

variable {r : RetryRule} {answers : Nat → Outcome} {last k : Nat} {now : Int64} {o : Order}
  {attempt : UInt32} {s : Settlement}

/-- Is there no other call after this outcome, however many retries are left? -/
def closes (r : RetryRule) : Outcome → Bool
  | .filled _ => true
  | .failed failure => !r.retries failure

/-- If call `i`, counted from zero, is answered by `answers i`, then `last` is the last call that is
asked for: the first one whose answer closes, or the last one that the rule allows. -/
structure LastCall (r : RetryRule) (answers : Nat → Outcome) (last : Nat) : Prop where
  allowed : last ≤ r.maxRetries.toNat
  before : ∀ i < last, r.closes (answers i) = false
  closed : last < r.maxRetries.toNat → r.closes (answers last) = true

theorem exists_lastCall (r : RetryRule) (answers : Nat → Outcome) :
    ∃ last, r.LastCall answers last := by
  have hex : ∃ i, r.closes (answers i) = true ∨ i = r.maxRetries.toNat := ⟨_, .inr rfl⟩
  refine ⟨Nat.find hex, Nat.find_le (.inr rfl), fun i hi => ?_, fun hlt => ?_⟩
  · have hnot := not_or.1 (Nat.find_min hex hi)
    simpa using hnot.1
  · exact (Nat.find_spec hex).resolve_right hlt.ne

/-- The last call stays open only if no other is allowed. -/
theorem LastCall.eq_maxRetries (h : r.LastCall answers last)
    (hopen : r.closes (answers last) = false) : last = r.maxRetries.toNat := by
  refine le_antisymm h.allowed (not_lt.1 fun hlt => ?_)
  rw [h.closed hlt] at hopen
  cases hopen

/-- The last call closes, unless every call that the rule allows stays open. -/
theorem LastCall.closes_iff (h : r.LastCall answers last) : r.closes (answers last) = false ↔
    ∀ i ≤ r.maxRetries.toNat, r.closes (answers i) = false := by
  constructor
  · intro hopen i hi
    rcases Nat.lt_or_eq_of_le (h.eq_maxRetries hopen ▸ hi) with hlt | rfl
    · exact h.before i hlt
    · exact hopen
  · exact fun hall => hall last h.allowed

theorem LastCall.le_mostCalls (h : r.LastCall answers last) : last ≤ mostCalls :=
  h.allowed.trans (toNat_le_mostCalls _)

/-- The last call is without a number only under the rule that allows for the most retries, and only
if every call that has a number stays open. -/
theorem LastCall.eq_mostCalls_iff (h : r.LastCall answers last) : last = mostCalls ↔
    r.maxRetries = 0xFFFFFFFF ∧ ∀ i < mostCalls, r.closes (answers i) = false := by
  constructor
  · intro hlast
    have hmax : r.maxRetries.toNat = mostCalls :=
      le_antisymm (toNat_le_mostCalls _) (hlast ▸ h.allowed)
    exact ⟨eq_max_iff.2 hmax, fun i hi => h.before i (hlast ▸ hi)⟩
  · rintro ⟨hmax, hopen⟩
    refine le_antisymm h.le_mostCalls (not_lt.1 fun hlt => ?_)
    have hclosed := h.closed (hlt.trans_eq (eq_max_iff.1 hmax).symm)
    rw [hopen last hlt] at hclosed
    cases hclosed

/-- There is another call after an answer that does not close, while retries are left. -/
theorem next_of_open (now : Int64) (o : Order) (hc : r.closes (answers k) = false)
    (hlt : attempt < r.maxRetries) :
    ∃ failure, r.next now o attempt (answers k) = .again failure := by
  cases ha : answers k with
  | filled fill =>
    rw [ha] at hc
    cases hc
  | failed failure =>
    have hr : r.retries failure = true := by simpa [ha, closes] using hc
    exact ⟨failure, next_again_iff.2 ⟨rfl, hr, hlt⟩⟩

/-- Another call is not the one after the last. -/
theorem LastCall.lt_of_again {failure : Failure} (h : r.LastCall answers last)
    (ha : attempt.toNat ≤ last)
    (hn : r.next now o attempt (answers attempt.toNat) = .again failure) :
    attempt.toNat < last := by
  obtain ⟨hanswer, hretries, hlt⟩ := next_again_iff.1 hn
  refine lt_of_le_of_ne ha fun he => ?_
  have hclosed := h.closed (he ▸ UInt32.lt_iff_toNat_lt.1 hlt)
  rw [← he, hanswer, closes, hretries] at hclosed
  cases hclosed

/-- A call whose answer settles the order is the last. -/
theorem LastCall.eq_of_settle (h : r.LastCall answers last) (ha : attempt.toNat ≤ last)
    (hn : r.next now o attempt (answers attempt.toNat) = .settle s) : attempt.toNat = last := by
  refine le_antisymm ha (not_lt.1 fun hlt => ?_)
  have hmax : attempt < r.maxRetries := UInt32.lt_iff_toNat_lt.2 (hlt.trans_le h.allowed)
  obtain ⟨failure, hagain⟩ := next_of_open now o (h.before _ hlt) hmax
  rw [hn] at hagain
  cases hagain

/-- The calls in all are one more than the retries, but no more than a 32-bit number can say. -/
theorem toNat_maxAttempts (r : RetryRule) :
    r.maxAttempts.toNat = min (r.maxRetries.toNat + 1) (2 ^ 32 - 1) := by
  have hbound := r.maxRetries.toNat_lt
  unfold maxAttempts
  split
  · rename_i h
    rw [h]
    rfl
  · rename_i h
    have hne : r.maxRetries.toNat ≠ 0xFFFFFFFF := fun he => h (UInt32.toNat_inj.1 he)
    rw [UInt32.toNat_add, UInt32.toNat_one, Nat.mod_eq_of_lt (by omega)]
    omega

end RetryRule

/-! ## The settlement -/

/-- What is recorded for an item whose calls, the last one of them `last`, are answered by
`answers`. -/
structure Concluded (r : RetryRule) (item : Item) (answers : Nat → Outcome) (last : Nat)
    (s : Settlement) : Prop where
  names : s.orderId = item.order.id ∧ s.client = item.order.client ∧ s.sequence = item.sequence
  retries : s.retries.toNat = last
  filled : ∀ fill, answers last = .filled fill → s.status = .success ∧ s.error = none ∧
    s.ticket = some fill.ticket ∧ s.price = some fill.price
  /-- A failure that the rule does not retry is passed on. -/
  failed : ∀ failure, answers last = .failed failure → r.retries failure = false →
    s.status = failure.kind.status ∧ s.error = some failure.reason ∧ s.ticket = none ∧
    s.price = none
  /-- Of failures that it retries, the last that it allows is named. -/
  exhausted : ∀ failure, answers last = .failed failure → r.retries failure = true →
    last = r.maxRetries.toNat ∧ s.status = .retryExhausted ∧
    s.error = some ("All " ++ toString (min (r.maxRetries.toNat + 1) (2 ^ 32 - 1)) ++
      " attempts failed. Last error: " ++ failure.reason) ∧ s.ticket = none ∧ s.price = none
  exhausted_iff : s.status = .retryExhausted ↔
    ∀ i ≤ r.maxRetries.toNat, r.closes (answers i) = false

/-- What is recorded for an item whose next call has no number, as the count of its calls is at its
end. -/
structure Overran (item : Item) (s : Settlement) : Prop where
  names : s.orderId = item.order.id ∧ s.client = item.order.client ∧ s.sequence = item.sequence
  status : s.status = .connectionError
  error : s.error = some Desk.breakText
  retries : s.retries = 0
  empty : s.ticket = none ∧ s.price = none

section Settlements

variable {r : RetryRule} {item : Item} {answers : Nat → Outcome} {last : Nat} {now : Int64}
  {attempt : UInt32} {s : Settlement}

/-- No failure of a broker says that the retries are used up. -/
theorem FailureKind.status_ne_retryExhausted (kind : FailureKind) :
    kind.status ≠ .retryExhausted := by
  cases kind <;> decide

/-- **The answer to the last call settles the order as it should.** -/
theorem RetryRule.LastCall.concluded (h : r.LastCall answers last) (ha : attempt.toNat = last)
    (hn : r.next now item.order attempt (answers last) = .settle s) :
    Concluded r item answers last (s.withSequence item.sequence) := by
  have hiff := h.closes_iff
  cases hanswer : answers last with
  | filled fill =>
    rw [hanswer] at hn hiff
    cases hn
    refine ⟨⟨rfl, rfl, rfl⟩, ha, fun fill' he => ?_, fun _ he => ?_, fun _ he => ?_, ?_⟩
    · cases hanswer.symm.trans he
      exact ⟨rfl, rfl, rfl, rfl⟩
    · cases hanswer.symm.trans he
    · cases hanswer.symm.trans he
    · rw [← hiff]
      constructor <;> intro h <;> cases h
  | failed failure =>
    rw [hanswer] at hn hiff
    by_cases hr : r.retries failure = true
    · have hmax : last = r.maxRetries.toNat :=
        h.eq_maxRetries (by rw [hanswer, closes, hr, Bool.not_true])
      have hle : r.maxRetries ≤ attempt := UInt32.le_iff_toNat_le.2 (by omega)
      simp only [next, hr, Bool.not_true, Bool.false_eq_true, if_false, if_pos hle,
        toNat_maxAttempts] at hn
      cases hn
      refine ⟨⟨rfl, rfl, rfl⟩, ha, fun _ he => ?_, fun _ he hf => ?_, fun failure' he _ => ?_, ?_⟩
      · cases hanswer.symm.trans he
      · cases hanswer.symm.trans he
        rw [hr] at hf
        cases hf
      · cases hanswer.symm.trans he
        exact ⟨hmax, rfl, rfl, rfl, rfl⟩
      · rw [← hiff, closes, hr]
        exact ⟨fun _ => rfl, fun _ => rfl⟩
    · have hf : r.retries failure = false := by simpa using hr
      simp only [next, hf, Bool.not_false, if_true] at hn
      cases hn
      refine ⟨⟨rfl, rfl, rfl⟩, ha, fun _ he => ?_, fun failure' he _ => ?_, fun _ he ht => ?_, ?_⟩
      · cases hanswer.symm.trans he
      · cases hanswer.symm.trans he
        exact ⟨rfl, rfl, rfl, rfl⟩
      · cases hanswer.symm.trans he
        exact absurd ht hr
      · rw [← hiff, closes, hf]
        exact ⟨fun he => absurd he failure.kind.status_ne_retryExhausted, fun ht => by cases ht⟩

end Settlements

/-! ## The calls -/

/-- What the broker answers in a deed to an execution call or, if it breaks off, to any call. -/
def Deed.reply? : Deed → Option (Reply Outcome)
  | .answer _ outcome => some (.answer outcome)
  | .broke _ => some .broke
  | _ => none

/-- The calls to the broker are answered by `answers`, as far as they go, and none breaks off. -/
def Answered (answers : Nat → Outcome) (deeds : List Deed) : Prop :=
  ∀ (i : Nat) (reply : Reply Outcome),
    (deeds.filterMap Deed.reply?)[i]? = some reply → reply = .answer (answers i)

/-- So many calls for an item, each with its answer. -/
def exchanges (item : Item) (answers : Nat → Outcome) (k : Nat) : List Deed :=
  (List.range k).flatMap fun i => exchange item (.answer (answers i))

section Exchanges

variable {item : Item} {answers : Nat → Outcome} {k : Nat} {deeds more : List Deed}

theorem exchanges_succ : exchanges item answers (k + 1) =
    exchanges item answers k ++ [.call item] ++ [.answer item (answers k)] := by
  rw [exchanges, List.range_succ, List.flatMap_append, List.flatMap_singleton, List.append_assoc]
  rfl

theorem replies_exchanges : (exchanges item answers k).filterMap Deed.reply? =
    (List.range k).map fun i => Reply.answer (answers i) := by
  induction k with
  | zero => rfl
  | succ k ih =>
    rw [exchanges_succ, List.filterMap_append, List.filterMap_append, ih, List.range_succ,
      List.map_append]
    simp [Deed.reply?]

/-- What came first was answered so. -/
theorem Answered.of_append (h : Answered answers (deeds ++ more)) : Answered answers deeds := by
  intro i reply hi
  refine h i reply ?_
  rw [List.filterMap_append]
  exact List.getElem?_append_left (List.getElem?_eq_some_iff.1 hi).1 ▸ hi

/-- The next answer is the next of the stream. -/
theorem Answered.next_eq {reply : Reply Outcome} (deed : Deed) (hd : deed.reply? = some reply)
    (h : Answered answers (exchanges item answers k ++ [.call item] ++ deed :: more)) :
    reply = .answer (answers k) := by
  refine h k reply ?_
  rw [List.filterMap_append, List.filterMap_append, replies_exchanges,
    List.filterMap_cons_some hd, List.append_assoc]
  have hlen : ((List.range k).map fun i => Reply.answer (answers i)).length = k := by simp
  rw [List.getElem?_append_right hlen.le, hlen, Nat.sub_self]
  rfl

end Exchanges

namespace Desk

variable {β : Type} {b : Broker β} {rule : RetryRule} {item : Item} {answers : Nat → Outcome}
  {last m n : Nat} {t : Thread} {d d' : Desk β} {p p' : Position} {events : List Event} {tr : Trace}
  {done : List Deed}

/-- The steps of a worker from its first call on until it has settled the order, if `last` is the
last call that is asked for: two for each call, and one where the call has no number. -/
def callTurns (last : Nat) : Nat :=
  if last < RetryRule.mostCalls then 2 * (last + 1) else 2 * last + 1

theorem callTurns_of_lt (h : last < RetryRule.mostCalls) : callTurns last = 2 * (last + 1) := if_pos h

theorem callTurns_mostCalls : callTurns RetryRule.mostCalls = 2 * RetryRule.mostCalls + 1 :=
  if_neg (lt_irrefl _)

/-- `Calling rule item answers last m p done`: a worker that has taken `m` steps from its first call
for the item on stands at `p` and has done this much. -/
inductive Calling (rule : RetryRule) (item : Item) (answers : Nat → Outcome) (last : Nat) :
    Nat → Position → List Deed → Prop
  | calling {attempt : UInt32} (h : attempt.toNat ≤ last) :
      Calling rule item answers last (2 * attempt.toNat) (.calling item attempt)
        (exchanges item answers attempt.toNat)
  | awaiting {attempt : UInt32} (h : attempt.toNat ≤ last)
      (hnumber : attempt.toNat < RetryRule.mostCalls) :
      Calling rule item answers last (2 * attempt.toNat + 1) (.awaiting item attempt)
        (exchanges item answers attempt.toNat ++ [.call item])
  | concluded {s : Settlement} (hnumber : last < RetryRule.mostCalls)
      (h : Concluded rule item answers last s) :
      Calling rule item answers last (callTurns last) (.recording item s)
        (exchanges item answers (last + 1) ++ [.enter .recording])
  | overran {s : Settlement} (hnumber : last = RetryRule.mostCalls) (h : Overran item s) :
      Calling rule item answers last (callTurns last) (.recording item s)
        (exchanges item answers last ++ [.overrun item, .enter .recording])

theorem Calling.start : Calling rule item answers last 0 (.calling item 0) [] := by
  have hzero : (0 : UInt32).toNat ≤ last := Nat.zero_le _
  have h : Calling rule item answers last (2 * (0 : UInt32).toNat) _ _ := .calling hzero
  exact h

/-- Before the end, the worker is about to call or waits, and has counted its calls. -/
theorem Calling.of_lt (h : Calling rule item answers last m p done) (hm : m < callTurns last) :
    ∃ attempt : UInt32, attempt.toNat = m / 2 ∧
      (p = .calling item attempt ∧ done = exchanges item answers attempt.toNat ∨
        p = .awaiting item attempt ∧
          done = exchanges item answers attempt.toNat ++ [.call item]) := by
  cases h with
  | calling h => exact ⟨_, by omega, .inl ⟨rfl, rfl⟩⟩
  | awaiting h => exact ⟨_, by omega, .inr ⟨rfl, rfl⟩⟩
  | concluded | overran => exact absurd hm (lt_irrefl _)

/-- In the end, the worker has settled the order: with the last answer, or where there is none. -/
theorem Calling.of_eq (h : Calling rule item answers last m p done) (hm : m = callTurns last) :
    ∃ s, p = .recording item s ∧
      (last < RetryRule.mostCalls → done = exchanges item answers (last + 1) ++ [.enter .recording] ∧
        Concluded rule item answers last s) ∧
      (last = RetryRule.mostCalls →
        done = exchanges item answers last ++ [.overrun item, .enter .recording] ∧
        Overran item s) := by
  cases h with
  | calling h =>
    unfold callTurns at hm
    split at hm <;> omega
  | awaiting h =>
    unfold callTurns at hm
    split at hm <;> omega
  | concluded hnumber h => exact ⟨_, rfl, fun _ => ⟨rfl, h⟩, fun he => absurd he hnumber.ne⟩
  | overran hnumber h => exact ⟨_, rfl, fun hlt => absurd hnumber hlt.ne, fun _ => ⟨rfl, h⟩⟩

/-- **A worker's step makes the next call, or takes its answer and goes on or ends.** -/
theorem Works.calling (h : Works b d n p d' p' events)
    (hlast : d.settings.retryRule.LastCall answers last) (hm : m < callTurns last)
    (hc : Calling d.settings.retryRule item answers last m p done)
    (hreplies : Answered answers (done ++ events.filterMap Event.deed?)) :
    Calling d.settings.retryRule item answers last (m + 1) p'
      (done ++ events.filterMap Event.deed?) := by
  cases hc with
  | concluded | overran => exact absurd hm (lt_irrefl _)
  | @calling attempt hle =>
    cases h with
    | call _ _ number hnumber =>
      rw [deeds_call]
      exact .awaiting hle (RetryRule.toNat_lt_of_ordinal hnumber)
    | overrun _ _ hnumber =>
      have hmost := RetryRule.ordinal?_eq_none_iff.1 hnumber
      have hend : attempt.toNat = last := le_antisymm hle (hmost ▸ hlast.le_mostCalls)
      have hturns : callTurns last = 2 * attempt.toNat + 1 := by
        rw [← hend, hmost, callTurns_mostCalls]
      rw [← hturns, hend]
      exact .overran (hend ▸ hmost) ⟨⟨rfl, rfl, rfl⟩, rfl, rfl, rfl, rfl, rfl⟩
  | @awaiting attempt hle hnumber =>
    cases h with
    | executeBroke _ _ h => cases Answered.next_eq (.broke item) rfl hreplies
    | again _ _ outcome failure h hn =>
      rw [deeds_answer] at hreplies ⊢
      have he := Answered.next_eq (.answer item outcome) rfl hreplies
      cases he
      have hlt := hlast.lt_of_again hle hn
      have hsucc := RetryRule.toNat_add_one (RetryRule.lt_of_again hn)
      have hnext : Calling d.settings.retryRule item answers last (2 * (attempt + 1).toNat)
          (.calling item (attempt + 1)) (exchanges item answers (attempt + 1).toNat) :=
        .calling (by omega)
      rw [hsucc, exchanges_succ] at hnext
      exact hnext
    | settle _ _ outcome s h hn =>
      rw [List.append_assoc (_ :: _), deeds_answer, deeds_verdict] at hreplies ⊢
      have he := Answered.next_eq (.answer item outcome) rfl hreplies
      cases he
      have heq := hlast.eq_of_settle hle hn
      have hlt : last < RetryRule.mostCalls := heq ▸ hnumber
      rw [heq] at hn ⊢
      have hend := Calling.concluded hlt (hlast.concluded heq hn)
      rw [callTurns_of_lt hlt, exchanges_succ, List.append_assoc] at hend
      exact hend

/-! ## Runs -/

/-- **Whatever every step keeps holds after a run**, also if it speaks of the schedule. -/
theorem follow_schedule {P : List Turn → Desk β → Trace → Prop}
    (hstep : ∀ {schedule turn d d' tr events}, P schedule d tr →
      Moves b turn.thread { d with now := turn.now } d' events →
      P (schedule ++ [turn]) d' (tr ++ Trace.ofStep turn.thread events)) :
    ∀ {schedule : List Turn} {d₀ d : Desk β} {tr : Trace} (s₀ : List Turn) (tr₀ : Trace),
      P s₀ d₀ tr₀ → d₀.follow b schedule = some (d, tr) → P (s₀ ++ schedule) d (tr₀ ++ tr)
  | [], d₀, d, tr, s₀, tr₀, h, hrun => by
    cases hrun
    rwa [List.append_nil, List.append_nil]
  | turn :: rest, d₀, d, tr, s₀, tr₀, h, hrun => by
    cases ht : d₀.tick b turn with
    | none =>
      rw [follow, ht] at hrun
      cases hrun
    | some next =>
      obtain ⟨d₁, events⟩ := next
      rw [follow, ht] at hrun
      obtain ⟨⟨d₂, later⟩, hf, he⟩ := Option.map_eq_some_iff.1 hrun
      cases he
      have hnext := follow_schedule hstep _ _ (hstep h (step_cases ht)) hf
      rwa [List.append_assoc, List.append_assoc tr₀] at hnext

/-- The turns of worker `n` in a schedule. -/
def turnsOf (n : Nat) (schedule : List Turn) : Nat :=
  schedule.countP fun turn => turn.thread = .worker n

theorem turnsOf_concat_self {schedule : List Turn} {turn : Turn} (h : turn.thread = .worker n) :
    turnsOf n (schedule ++ [turn]) = turnsOf n schedule + 1 := by
  simp [turnsOf, h]

theorem turnsOf_concat_of_ne {schedule : List Turn} {turn : Turn} (h : turn.thread ≠ .worker n) :
    turnsOf n (schedule ++ [turn]) = turnsOf n schedule := by
  simp [turnsOf, h]

theorem turnsOf_turns (n m : Nat) : turnsOf n (turns (.worker n) m) = m := by
  rw [turnsOf, turns, List.countP_replicate, if_pos (decide_eq_true rfl)]

/-- Worker `n` is at its calls for the item, as long as they are answered by the stream. -/
structure InCalls (rule : RetryRule) (item : Item) (answers : Nat → Outcome) (last n : Nat)
    (schedule : List Turn) (d : Desk β) (tr : Trace) : Prop where
  asleep : d.Asleep
  rule_eq : d.settings.retryRule = rule
  calling : turnsOf n schedule ≤ callTurns last → Answered answers (tr.deeds n) →
    ∃ p, d.workers[n]? = some p ∧
      Calling rule item answers last (turnsOf n schedule) p (tr.deeds n)

theorem InCalls.step (hlast : rule.LastCall answers last) {schedule : List Turn} {turn : Turn}
    (hp : InCalls rule item answers last n schedule d tr)
    (h : Moves b turn.thread { d with now := turn.now } d' events) :
    InCalls rule item answers last n (schedule ++ [turn]) d'
      (tr ++ Trace.ofStep turn.thread events) := by
  have hz : Asleep { d with now := turn.now } := hp.asleep
  refine ⟨h.asleep hz, h.settings_eq ▸ hp.rule_eq, fun hm hreplies => ?_⟩
  rcases h.position_cases hz n with ⟨ht, hat⟩ | ⟨p, d₁, p', ht, hat, hw, rfl, hat'⟩
  · rw [Trace.deeds_step_of_ne ht] at hreplies ⊢
    rw [turnsOf_concat_of_ne ht] at hm ⊢
    obtain ⟨p, hpos, hc⟩ := hp.calling hm hreplies
    refine ⟨p, ?_, hc⟩
    rcases hat with hat | ⟨hnone, -⟩
    · exact hat.trans hpos
    · cases hnone.symm.trans hpos
  · rw [ht, Trace.deeds_step_self] at hreplies ⊢
    rw [turnsOf_concat_self ht] at hm ⊢
    obtain ⟨q, hpos, hc⟩ := hp.calling (by omega) hreplies.of_append
    cases hat.symm.trans hpos
    obtain rfl := hp.rule_eq
    exact ⟨p', hat', hw.calling hlast (by omega) hc hreplies⟩

/-- What holds of a worker's calls in any run from the first of them on. -/
theorem inCalls_of_follow {d₀ : Desk β} {schedule : List Turn} (hz : d₀.Asleep)
    (hat : d₀.workers[n]? = some (.calling item 0))
    (hlast : d₀.settings.retryRule.LastCall answers last)
    (hrun : d₀.follow b schedule = some (d, tr)) :
    InCalls d₀.settings.retryRule item answers last n schedule d tr :=
  follow_schedule (InCalls.step hlast) [] [] ⟨hz, rfl, fun _ _ => ⟨_, hat, .start⟩⟩ hrun

/-- **The calls for an order end exactly.** Let a worker come to its first execution call for an
item, and let `answers` be what the broker answers to its calls, none of which breaks off. Then one
of the calls is the last one: the first that the broker fills or fails for good, or else the last
that the rule allows. Whatever the other threads do in between, the worker can take its steps, makes
the calls up to that one and no more, its count of them right, and settles the order by the last
answer; it says that the retries are used up if every call that the rule allows failed in a way that
the rule retries, and not otherwise.

All this holds as long as the last call has a number. It has none exactly if the rule allows for the
most retries that 32 bits can say and every call that has a number failed in a way that the rule
retries: then the worker breaks off in place of the last call, and the order is settled as a lost
connection without any retry. -/
theorem calls_end_exactly {d₀ : Desk β} (hz : d₀.Asleep)
    (hat : d₀.workers[n]? = some (.calling item 0)) (answers : Nat → Outcome) :
    ∃ last, d₀.settings.retryRule.LastCall answers last ∧
      (last = RetryRule.mostCalls ↔ d₀.settings.retryRule.maxRetries = 0xFFFFFFFF ∧
        ∀ i < RetryRule.mostCalls, d₀.settings.retryRule.closes (answers i) = false) ∧
      ∀ {schedule : List Turn} {d : Desk β} {tr : Trace},
        d₀.follow b schedule = some (d, tr) → Answered answers (tr.deeds n) →
        (turnsOf n schedule < callTurns last → (d.step b (.worker n)).isSome = true ∧
          ∃ attempt : UInt32, attempt.toNat = turnsOf n schedule / 2 ∧
            (d.workers[n]? = some (.calling item attempt) ∧
                tr.deeds n = exchanges item answers attempt.toNat ∨
              d.workers[n]? = some (.awaiting item attempt) ∧
                tr.deeds n = exchanges item answers attempt.toNat ++ [.call item])) ∧
        (turnsOf n schedule = callTurns last → ∃ s, d.workers[n]? = some (.recording item s) ∧
          (last < RetryRule.mostCalls →
            tr.deeds n = exchanges item answers (last + 1) ++ [.enter .recording] ∧
            Concluded d₀.settings.retryRule item answers last s) ∧
          (last = RetryRule.mostCalls →
            tr.deeds n = exchanges item answers last ++ [.overrun item, .enter .recording] ∧
            Overran item s)) := by
  obtain ⟨last, hlast⟩ := d₀.settings.retryRule.exists_lastCall answers
  refine ⟨last, hlast, hlast.eq_mostCalls_iff, fun {schedule d tr} hrun hreplies => ?_⟩
  have hend := inCalls_of_follow hz hat hlast hrun
  refine ⟨fun hm => ?_, fun hm => ?_⟩
  · obtain ⟨p, hpos, hc⟩ := hend.calling (le_of_lt hm) hreplies
    obtain ⟨attempt, hattempt, ⟨rfl, hdone⟩ | ⟨rfl, hdone⟩⟩ := hc.of_lt hm
    · exact ⟨isSome_step_of_unrecorded hpos (by simp [Position.unrecorded]), attempt, hattempt,
        .inl ⟨hpos, hdone⟩⟩
    · exact ⟨isSome_step_of_unrecorded hpos (by simp [Position.unrecorded]), attempt, hattempt,
        .inr ⟨hpos, hdone⟩⟩
  · obtain ⟨p, hpos, hc⟩ := hend.calling (le_of_eq hm) hreplies
    obtain ⟨s, rfl, hs⟩ := hc.of_eq hm
    exact ⟨s, hpos, hs⟩

/-- A worker comes to its first call to a broker that always loses the connection. -/
def losing (maxRetries : UInt32) : Desk Scripted :=
  { closed { Settings.standard with maxRetries := maxRetries }
      (Scripted.empty.alwaysFailing timeout) Register.empty with
    lifecycle := .running, workers := [.calling ⟨plainOrder "r-1", 0, none⟩ 0] }

/-- There is one retry. -/
theorem calls_end_exactly_losing : ∃ d, ∃ tr : Trace,
    (losing 1).follow Scripted.broker (turns (.worker 0) 4) = some (d, tr) ∧
    (tr.deeds 0).length = 5 ∧
    ∃ s, d.workers[0]? = some (.recording ⟨plainOrder "r-1", 0, none⟩ s) ∧
      s.status = .retryExhausted ∧ s.retries = 1 ∧
      s.error = some "All 2 attempts failed. Last error: Timeout" := by
  obtain ⟨⟨d, tr⟩, hrun⟩ :
      ∃ end', (losing 1).follow Scripted.broker (turns (.worker 0) 4) = some end' := ⟨_, rfl⟩
  have hreplies : Answered (fun _ => .failed timeout) (Trace.deeds tr 0) := by
    cases hrun
    rintro (_ | _ | i) reply h
    · cases h; rfl
    · cases h; rfl
    · cases h
  have hat : (losing 1).workers[0]? = some (.calling ⟨plainOrder "r-1", 0, none⟩ 0) := rfl
  obtain ⟨last, hlast, -, hends⟩ :=
    calls_end_exactly (b := Scripted.broker) (fun h => by cases h) hat fun _ => .failed timeout
  have hone : last = 1 := by
    refine le_antisymm hlast.allowed (Nat.one_le_iff_ne_zero.2 ?_)
    rintro rfl
    cases hlast.closed Nat.one_pos
  subst hone
  have hfew : 1 < RetryRule.mostCalls := RetryRule.one_lt_mostCalls
  obtain ⟨s, hat, hs, -⟩ := (hends hrun hreplies).2 (callTurns_of_lt hfew).symm
  obtain ⟨hdeeds, hs⟩ := hs hfew
  obtain ⟨-, hstatus, herror, -⟩ := hs.exhausted timeout rfl rfl
  exact ⟨d, tr, hrun, by rw [hdeeds]; rfl, s, hat, hstatus, UInt32.toNat_inj.1 hs.retries, herror⟩

/-! ## Out of numbers -/

/-- In the states of `P`, which it does not leave, the broker answers every execution call alike. -/
structure Unvarying (b : Broker β) (P : β → Prop) (outcome : Outcome) : Prop where
  reply : ∀ s now o, P s → (b.execute s now o).reply = .answer outcome
  kept : ∀ s now o, P s → P (b.execute s now o).state

section OutOfNumbers

variable {P : β → Prop} {outcome : Outcome} {attempt : UInt32}

theorem answered_iff {deeds : List Deed} : Answered (fun _ => outcome) deeds ↔
    ∀ reply ∈ deeds.filterMap Deed.reply?, reply = .answer outcome := by
  constructor
  · intro h reply hmem
    obtain ⟨i, hi⟩ := List.mem_iff_getElem?.1 hmem
    exact h i reply hi
  · exact fun h i reply hi => h reply (List.mem_of_getElem? hi)

/-- At its calls, a worker is told nothing else by an unvarying broker. -/
theorem Works.answered_alike (hb : Unvarying b P outcome) (h : Works b d n p d' p' events)
    (hp : p = .calling item attempt ∨ p = .awaiting item attempt) (hs : P d.broker) :
    P d'.broker ∧ Answered (fun _ => outcome) (events.filterMap Event.deed?) := by
  rcases hp with rfl | rfl
  · cases h with
    | call =>
      rw [deeds_call]
      exact ⟨hs, answered_iff.2 nofun⟩
    | overrun => exact ⟨hs, answered_iff.2 nofun⟩
  · cases h with
    | executeBroke _ _ h => cases h.symm.trans (hb.reply _ _ _ hs)
    | again _ _ outcome' failure h hn =>
      cases h.symm.trans (hb.reply _ _ _ hs)
      rw [deeds_answer]
      exact ⟨hb.kept _ _ _ hs, answered_iff.2 (List.forall_mem_singleton.2 rfl)⟩
    | settle _ _ outcome' s h hn =>
      cases h.symm.trans (hb.reply _ _ _ hs)
      rw [List.append_assoc (_ :: _), deeds_answer, deeds_verdict]
      exact ⟨hb.kept _ _ _ hs, answered_iff.2 (List.forall_mem_singleton.2 rfl)⟩

/-- **The steps up to the end of the calls are there to be taken**, and no call breaks off. -/
theorem exists_follow_calls {d₀ : Desk β} (hb : Unvarying b P outcome) (hz : d₀.Asleep)
    (hat : d₀.workers[n]? = some (.calling item 0))
    (hlast : d₀.settings.retryRule.LastCall (fun _ => outcome) last) (hs : P d₀.broker)
    (hm : m ≤ callTurns last) :
    ∃ d, ∃ tr : Trace, d₀.follow b (turns (.worker n) m) = some (d, tr) ∧ P d.broker ∧
      Answered (fun _ => outcome) (tr.deeds n) := by
  induction m with
  | zero => exact ⟨d₀, [], rfl, hs, answered_iff.2 nofun⟩
  | succ m ih =>
    obtain ⟨d, tr, hrun, hs, hreplies⟩ := ih (by omega)
    have hturns : turnsOf n (turns (.worker n) m) = m := turnsOf_turns n m
    obtain ⟨p, hpos, hc⟩ := (inCalls_of_follow hz hat hlast hrun).calling (by omega) hreplies
    obtain ⟨attempt, -, hp⟩ := hc.of_lt (by omega)
    have hp : p = .calling item attempt ∨ p = .awaiting item attempt := hp.imp And.left And.left
    have hsome : (d.tick b ⟨.worker n, 0⟩).isSome = true :=
      isSome_step_of_unrecorded (d := { d with now := 0 }) hpos (by
        rcases hp with rfl | rfl <;> simp [Position.unrecorded])
    obtain ⟨⟨d₁, events⟩, htick⟩ := Option.isSome_iff_exists.1 hsome
    have hone : d.follow b [⟨.worker n, 0⟩] =
        some (d₁, Trace.ofStep (.worker n) events) := by
      simp [follow, htick, Trace.ofStep]
    refine ⟨d₁, tr ++ Trace.ofStep (.worker n) events, ?_, ?_⟩
    · rw [turns, List.replicate_succ']
      exact follow_append hrun hone
    · cases step_cases htick with
      | worker hat' hw =>
        cases hat'.symm.trans hpos
        obtain ⟨hs, htold⟩ := hw.answered_alike hb hp hs
        rw [Trace.deeds_step_self]
        refine ⟨hs, answered_iff.2 ?_⟩
        rw [List.filterMap_append]
        exact List.forall_mem_append.2 ⟨answered_iff.1 hreplies, answered_iff.1 htold⟩

theorem unvarying_alwaysFailing (failure : Failure) :
    Unvarying Scripted.broker (fun s => s.script = [] ∧ s.fallback = some failure)
      (.failed failure) where
  reply s now o hs := by
    simp [Scripted.broker, Scripted.execute, Scripted.nextFailure, hs.1, hs.2]
  kept s now o hs := by
    simp [Scripted.broker, Scripted.execute, Scripted.nextFailure, hs.1, hs.2]

/-- **An order can use up the numbers of its calls.** The broker always loses the connection, and the
rule allows for the most retries. The order is settled after as many calls as there are numbers, and
not as its calls should conclude. -/
theorem calls_run_out : ∃ d, ∃ tr : Trace,
    (losing 0xFFFFFFFF).follow Scripted.broker
      (turns (.worker 0) (2 * RetryRule.mostCalls + 1)) = some (d, tr) ∧
    Answered (fun _ => .failed timeout) (tr.deeds 0) ∧
    tr.deeds 0 = exchanges ⟨plainOrder "r-1", 0, none⟩ (fun _ => .failed timeout)
      RetryRule.mostCalls ++ [.overrun ⟨plainOrder "r-1", 0, none⟩, .enter .recording] ∧
    ∃ s, d.workers[0]? = some (.recording ⟨plainOrder "r-1", 0, none⟩ s) ∧
      s.status = .connectionError ∧ s.retries = 0 ∧
      ∀ last, ¬Concluded (losing 0xFFFFFFFF).settings.retryRule ⟨plainOrder "r-1", 0, none⟩
        (fun _ => .failed timeout) last s := by
  have hz : (losing 0xFFFFFFFF).Asleep := fun h => by cases h
  have hat : (losing 0xFFFFFFFF).workers[0]? = some (.calling ⟨plainOrder "r-1", 0, none⟩ 0) := rfl
  obtain ⟨last, hlast⟩ :=
    (losing 0xFFFFFFFF).settings.retryRule.exists_lastCall fun _ => .failed timeout
  have hmost : last = RetryRule.mostCalls := hlast.eq_mostCalls_iff.2 ⟨rfl, fun _ _ => rfl⟩
  subst hmost
  obtain ⟨d, tr, hrun, -, hreplies⟩ := exists_follow_calls (unvarying_alwaysFailing timeout) hz hat
    hlast ⟨rfl, rfl⟩ callTurns_mostCalls.ge
  have hturns : turnsOf 0 (turns (.worker 0) (2 * RetryRule.mostCalls + 1)) =
      callTurns RetryRule.mostCalls := by
    rw [callTurns_mostCalls, turnsOf_turns]
  obtain ⟨p, hpos, hc⟩ := (inCalls_of_follow hz hat hlast hrun).calling hturns.le hreplies
  obtain ⟨s, rfl, -, hs⟩ := hc.of_eq hturns
  obtain ⟨hdeeds, hs⟩ := hs rfl
  refine ⟨d, tr, hrun, hreplies, hdeeds, s, hpos, hs.status, hs.retries, fun last hc => ?_⟩
  have hstatus := hc.exhausted_iff.2 fun _ _ => rfl
  cases hs.status.symm.trans hstatus

end OutOfNumbers

end Desk

end DealDesk
