import DealDesk.Desk.Step
import DealDesk.Proofs.Broker.Steady
import DealDesk.Proofs.Counter
import DealDesk.Proofs.Register.Agreement
import DealDesk.Proofs.Retry

/-!
# One order after the other

* `RetryRule.pursue` — execution calls for an order until one of them settles it, or the next has no
  number.
* `settleOne`, `settleInTurn` — gate, broker and register for one order, and for some in turn.
* `verdict` — how an order is settled if the broker answers as told.

`settleInTurn_verdicts` is the main result: over a steady broker each order of a list is settled by
its verdict and numbered by its place.
-/

namespace DealDesk

/-! ## Trying again -/

namespace RetryRule

variable {r : RetryRule} {now : Int64} {o : Order} {attempt : UInt32} {outcome : Outcome}

/-- What is settled at one time is settled at another. -/
theorem next_settle {s : Settlement} (h : r.next now o attempt outcome = .settle s) (now' : Int64) :
    ∃ s', r.next now' o attempt outcome.undated = .settle s' ∧ s.undated = s'.undated := by
  cases outcome with
  | filled fill => cases h; exact ⟨_, rfl, rfl⟩
  | failed failure =>
    simp only [next, Outcome.undated] at h ⊢
    split at h
    · rename_i hr
      cases h
      exact ⟨_, if_pos hr, rfl⟩
    · rename_i hr
      rw [if_neg hr]
      split at h
      · rename_i hm
        cases h
        exact ⟨_, if_pos hm, rfl⟩
      · cases h

/-- What is tried again at one time is tried again at another. -/
theorem next_again {failure : Failure} (h : r.next now o attempt outcome = .again failure)
    (now' : Int64) : r.next now' o attempt outcome.undated = .again failure := by
  cases outcome with
  | filled fill => cases h
  | failed f =>
    simp only [next, Outcome.undated] at h ⊢
    split at h
    · cases h
    · rename_i hr
      rw [if_neg hr]
      split at h
      · cases h
      · rename_i hm
        exact (if_neg hm).trans h

/-- Makes execution calls, from call `attempt` on, until the order is settled. -/
def pursue {σ : Type} (r : RetryRule) (now : Int64) (o : Order) (call : σ → Reply Outcome × σ)
    (attempt : UInt32) (s : σ) : Settlement × σ :=
  match ordinal? attempt with
  | none => (Settlement.refused now o .connectionError Desk.breakText, s)
  | some _ =>
    match (call s).1 with
    | .broke => (Settlement.refused now o .connectionError Desk.breakText, (call s).2)
    | .answer outcome =>
      match h : r.next now o attempt outcome with
      | .settle settlement => (settlement, (call s).2)
      | .again _ => r.pursue now o call (attempt + 1) (call s).2
termination_by r.maxRetries.toNat - attempt.toNat
decreasing_by
  have hlt := lt_of_again h
  have hsucc := toNat_add_one hlt
  have hlt : attempt.toNat < r.maxRetries.toNat := UInt32.lt_iff_toNat_lt.1 hlt
  omega

section Pursue

variable {σ τ : Type} {call : σ → Reply Outcome × σ} {call' : τ → Reply Outcome × τ} {s : σ} {t : τ}
  {number : UInt32}

theorem pursue_overrun (hnumber : ordinal? attempt = none) : r.pursue now o call attempt s =
    (Settlement.refused now o .connectionError Desk.breakText, s) := by
  rw [pursue, hnumber]

theorem pursue_broke (hnumber : ordinal? attempt = some number) (h : (call s).1 = .broke) :
    r.pursue now o call attempt s =
      (Settlement.refused now o .connectionError Desk.breakText, (call s).2) := by
  rw [pursue, hnumber, h]

theorem pursue_settle {settlement : Settlement} (hnumber : ordinal? attempt = some number)
    (h : (call s).1 = .answer outcome) (hn : r.next now o attempt outcome = .settle settlement) :
    r.pursue now o call attempt s = (settlement, (call s).2) := by
  rw [pursue, hnumber, h]
  dsimp only
  split
  · rename_i hn'
    cases hn.symm.trans hn'
    rfl
  · rename_i hn'
    cases hn.symm.trans hn'

theorem pursue_again {failure : Failure} (hnumber : ordinal? attempt = some number)
    (h : (call s).1 = .answer outcome) (hn : r.next now o attempt outcome = .again failure) :
    r.pursue now o call attempt s = r.pursue now o call (attempt + 1) (call s).2 := by
  rw [pursue, hnumber, h]
  dsimp only
  split
  · rename_i hn'
    cases hn.symm.trans hn'
  · rfl

/-- **Calls that answer alike settle alike**, if they keep to states that answer alike. -/
theorem pursue_congr (r : RetryRule) (now now' : Int64) (o : Order) (attempt : UInt32)
    {R : σ → τ → Prop}
    (hcall : ∀ s t, R s t → (call s).1.undated = (call' t).1 ∧ R (call s).2 (call' t).2)
    (h : R s t) :
    (r.pursue now o call attempt s).1.undated = (r.pursue now' o call' attempt t).1.undated ∧
      R (r.pursue now o call attempt s).2 (r.pursue now' o call' attempt t).2 := by
  fun_induction r.pursue now o call attempt s generalizing t with
  | case1 attempt s hnumber =>
    rw [pursue_overrun hnumber]
    exact ⟨rfl, h⟩
  | case2 attempt s number hnumber hbroke =>
    obtain ⟨hreply, hstate⟩ := hcall s t h
    rw [hbroke] at hreply
    rw [pursue_broke hnumber hreply.symm]
    exact ⟨rfl, hstate⟩
  | case3 attempt s number hnumber outcome hanswer settlement hn =>
    obtain ⟨hreply, hstate⟩ := hcall s t h
    rw [hanswer] at hreply
    obtain ⟨settlement', hn', heq⟩ := next_settle hn now'
    rw [pursue_settle hnumber hreply.symm hn']
    exact ⟨heq, hstate⟩
  | case4 attempt s number hnumber outcome hanswer failure hn ih =>
    obtain ⟨hreply, hstate⟩ := hcall s t h
    rw [hanswer] at hreply
    rw [pursue_again hnumber hreply.symm (next_again hn now')]
    exact ih hstate

end Pursue

end RetryRule

/-! ## One order -/

/-- The answers to an order, one after the other. -/
def tell (answers : Nat → Reply Outcome) (n : Nat) : Reply Outcome × Nat := (answers n, n + 1)

/-- The settlement of an order, up to its time, by what the broker answers. -/
def verdict (r : RetryRule) (a : Answers) (o : Order) : Settlement :=
  match o.flaw with
  | some why => why.settlement 0 o
  | none =>
    match a.quote o.symbol with
    | .broke => Settlement.refused 0 o .connectionError Desk.breakText
    | .answer i =>
      match o.clash i with
      | some why => why.settlement 0 o
      | none => (r.pursue 0 o (tell (a.outcome o)) 0 0).1

section Verdict

variable {r : RetryRule} {a : Answers} {o : Order} {i : Option Instrument} {why : Objection}

theorem verdict_flaw (hf : o.flaw = some why) : verdict r a o = why.settlement 0 o := by
  simp only [verdict, hf]

theorem verdict_broke (hf : o.flaw = none) (hq : a.quote o.symbol = .broke) :
    verdict r a o = Settlement.refused 0 o .connectionError Desk.breakText := by
  simp only [verdict, hf, hq]

theorem verdict_clash (hf : o.flaw = none) (hq : a.quote o.symbol = .answer i)
    (hc : o.clash i = some why) : verdict r a o = why.settlement 0 o := by
  simp only [verdict, hf, hq, hc]

theorem verdict_clear (hf : o.flaw = none) (hq : a.quote o.symbol = .answer i)
    (hc : o.clash i = none) : verdict r a o = (r.pursue 0 o (tell (a.outcome o)) 0 0).1 := by
  simp only [verdict, hf, hq, hc]

end Verdict

section Turn

variable {β : Type}

def Broker.call (b : Broker β) (now : Int64) (o : Order) (s : β) : Reply Outcome × β :=
  ((b.execute s now o).reply, (b.execute s now o).state)

/-- Takes an order through gate and broker. -/
def settleOne (b : Broker β) (r : RetryRule) (now : Int64) (o : Order) (gate : Gate) (s : β) :
    Settlement × Gate × β :=
  match gate.examine b s o with
  | (.broke, gate, s) => (Settlement.refused now o .connectionError Desk.breakText, gate, s)
  | (.answer (some why), gate, s) => (why.settlement now o, gate, s)
  | (.answer none, gate, s) =>
    let (settlement, s) := r.pursue now o (b.call now o) 0 s
    (settlement, gate, s)

/-- Takes orders through gate, broker and register, each after the one before is recorded. -/
def settleInTurn (b : Broker β) (r : RetryRule) (now : Int64) :
    List Order → Gate → β → Register → Register
  | [], _, _, register => register
  | o :: rest, gate, s, register =>
    let (settlement, gate, s) := settleOne b r now o gate s
    let (sequence, register) := register.drawSequence
    settleInTurn b r now rest gate s (register.record (settlement.withSequence sequence))

variable {b : Broker β} {r : RetryRule} {s₀ s : β} {orders : List Order} {history : List BrokerCall}
  {a : Answers} {o : Order} {gate : Gate}

/-- The broker has executed the order `n` times; of other orders it has heard as in `before`. -/
def Serving (b : Broker β) (s₀ : β) (orders : List Order) (o : Order) (before : List BrokerCall)
    (s : β) (n : Nat) : Prop :=
  ∃ history, Heard b s₀ orders history s ∧ executions o.id history = n ∧
    ∀ id, o.id ≠ id → executions id history = executions id before

/-- One more execution is answered as told. -/
theorem Serving.call (hb : Steady b s₀ orders a) (ho : o ∈ orders) (now : Int64)
    (s : β) (n : Nat) (h : Serving b s₀ orders o history s n) :
    (b.call now o s).1.undated = (tell (a.outcome o) n).1 ∧
      Serving b s₀ orders o history (b.call now o s).2 (tell (a.outcome o) n).2 := by
  obtain ⟨heard, hs, rfl, hother⟩ := h
  refine ⟨hs.execute_eq hb ho now, _, hs.execute ho now, executions_execute_self, ?_⟩
  intro id hid
  rw [executions_execute_of_ne hid, hother id hid]

/-- **An order that is new to the gate and the broker is settled by its verdict.** -/
theorem settleOne_verdict (hb : Steady b s₀ orders a)
    (hs : Heard b s₀ orders history s) (ho : o ∈ orders) (hgate : o.id ∉ gate.seen)
    (hnew : executions o.id history = 0) (now : Int64) :
    ∃ history', Heard b s₀ orders history' (settleOne b r now o gate s).2.2 ∧
      (∀ id, o.id ≠ id → executions id history' = executions id history) ∧
      (settleOne b r now o gate s).2.1 = ⟨o.id :: gate.seen⟩ ∧
      (settleOne b r now o gate s).1.undated = (verdict r a o).undated := by
  have henter : gate.enter o.id = (true, ⟨o.id :: gate.seen⟩) := by simp [Gate.enter, hgate]
  unfold settleOne Gate.examine
  rw [henter]
  dsimp only
  cases hf : o.flaw with
  | some why =>
    rw [verdict_flaw hf]
    exact ⟨history, hs, fun _ _ => rfl, rfl, rfl⟩
  | none =>
    rcases hquote : b.quote s o.symbol with ⟨reply, s₁⟩
    obtain ⟨hq, hs⟩ := hs.quoted hb ho hquote
    dsimp only
    cases reply with
    | broke =>
      rw [verdict_broke hf hq]
      exact ⟨_, hs, fun _ _ => executions_quote, rfl, rfl⟩
    | answer i =>
      dsimp only
      cases hc : o.clash i with
      | some why =>
        rw [verdict_clash hf hq hc]
        exact ⟨_, hs, fun _ _ => executions_quote, rfl, rfl⟩
      | none =>
        rw [verdict_clear hf hq hc]
        have hstart : Serving b s₀ orders o history s₁ 0 :=
          ⟨_, hs, executions_quote.trans hnew, fun _ _ => executions_quote⟩
        obtain ⟨heq, history', hh, -, hother⟩ :=
          r.pursue_congr now 0 o 0 (Serving.call hb ho now) hstart
        exact ⟨history', hh, hother, rfl, heq⟩

/-! ## All orders -/

/-- The settlements of some orders by their verdicts, with the numbers that they draw. -/
def verdicts (r : RetryRule) (a : Answers) (first : UInt64) (list : List Order) :
    List Settlement :=
  List.zipWith (fun o n => (verdict r a o).withSequence n) list
    (counted first list.length)

theorem verdicts_cons (first : UInt64) (rest : List Order) :
    verdicts r a first (o :: rest) =
      (verdict r a o).withSequence first ::
        verdicts r a (first + 1) rest := by
  rw [verdicts, List.length_cons, counted_cons, List.zipWith_cons_cons]
  rfl

theorem undated_withSequence {s s' : Settlement} (h : s.undated = s'.undated) (n : UInt64) :
    (s.withSequence n).undated = (s'.withSequence n).undated := by
  have h' : s.undated.withSequence n = s'.undated.withSequence n := by rw [h]
  exact h'

/-- **Orders taken in turn are settled by their verdicts**, up to the times. -/
theorem settleInTurn_verdicts (hb : Steady b s₀ orders a) (now : Int64)
    (list : List Order) (hlist : list ⊆ orders) (hids : (list.map (·.id)).Nodup)
    (hs : Heard b s₀ orders history s) (hgate : ∀ o ∈ list, o.id ∉ gate.seen)
    (hnew : ∀ o ∈ list, executions o.id history = 0) (register : Register) :
    ∃ (l : List Settlement) (n : UInt64), settleInTurn b r now list gate s register =
        { l.foldl Register.record register with nextSequence := n } ∧
      l.map Settlement.undated =
        (verdicts r a register.nextSequence list).map Settlement.undated := by
  induction list generalizing gate s history register with
  | nil => exact ⟨[], register.nextSequence, rfl, rfl⟩
  | cons o rest ih =>
    obtain ⟨hfirst, hids⟩ := List.nodup_cons.1 hids
    have hne : ∀ o' ∈ rest, o.id ≠ o'.id := by
      intro o' ho' he
      exact hfirst (List.mem_map.2 ⟨o', ho', he.symm⟩)
    obtain ⟨history', hs', hother, hseen, heq⟩ := settleOne_verdict (r := r) hb hs
      (hlist List.mem_cons_self) (hgate o List.mem_cons_self) (hnew o List.mem_cons_self) now
    have hgate' : ∀ o' ∈ rest, o'.id ∉ (settleOne b r now o gate s).2.1.seen := by
      intro o' ho' hmem
      rw [hseen] at hmem
      rcases List.mem_cons.1 hmem with he | hmem
      · exact hne o' ho' he.symm
      · exact hgate o' (List.mem_cons_of_mem _ ho') hmem
    have hnew' : ∀ o' ∈ rest, executions o'.id history' = 0 := by
      intro o' ho'
      rw [hother o'.id (hne o' ho')]
      exact hnew o' (List.mem_cons_of_mem _ ho')
    obtain ⟨l, n, hreg, hl⟩ := ih (List.subset_of_cons_subset hlist) hids hs' hgate' hnew'
      (register.drawSequence.2.record ((settleOne b r now o gate s).1.withSequence
        register.nextSequence))
    refine ⟨(settleOne b r now o gate s).1.withSequence register.nextSequence :: l, n, ?_, ?_⟩
    · refine hreg.trans ?_
      rw [Register.drawSequence, Register.record_withNext, Register.foldl_record_withNext]
      rfl
    · rw [Register.record_nextSequence] at hl
      rw [verdicts_cons, List.map_cons, List.map_cons, hl, undated_withSequence heq]
      rfl

end Turn

end DealDesk
