import DealDesk.Proofs.Desk.Custody
import DealDesk.Proofs.Retry

/-!
# The rounds of a worker

* `Deed` — a thing that a worker does, as far as its protocol goes: it enters a phase, shows an item
  to the gate and hears what the gate says, turns to the broker, records, runs a callback.
  `Trace.deeds` is what one worker did.
* `Order.ruling` — what examining an order comes to; `Gate.examine_fst` has the gate say it.
* `Round` — an item in a worker's hands, and all that is answered about it. `Round.deeds` and
  `Round.phases` are what the worker does and where it passes; `Round.Kept` is what the protocol
  asks of the answers.
* `shift`, `path` — the deeds and the phases of a worker from its start until it stops.
-/

namespace DealDesk

/-! ## Deeds -/

inductive Deed
  | enter (phase : Phase)
  /-- Shows the item to the gate. -/
  | examine (item : Item)
  /-- The gate knows the name of the item. -/
  | duplicate (item : Item)
  /-- The gate objects. -/
  | objected (item : Item)
  /-- The gate lets the item through. -/
  | cleared (item : Item)
  /-- Asks the broker for the symbol of the item. -/
  | quote (item : Item)
  /-- Makes an execution call. -/
  | call (item : Item)
  /-- The execution call is answered. -/
  | answer (item : Item) (outcome : Outcome)
  /-- The call to the broker, of either kind, breaks off. -/
  | broke (item : Item)
  /-- There is no number for the next execution call. -/
  | overrun (item : Item)
  | record (item : Item) (settlement : Settlement)
  /-- Invokes the callback. -/
  | notify (item : Item) (settlement : Settlement)

def Deed.phase? : Deed → Option Phase
  | .enter phase => some phase
  | _ => none

/-- What the broker says in a deed is what it says, in some state, to the order of the item. -/
def Deed.Heard {β : Type} (b : Broker β) : Deed → Prop
  | .answer item outcome => ∃ s now, (b.execute s now item.order).reply = .answer outcome
  | .broke item => (∃ s, (b.quote s item.order.symbol).1 = .broke) ∨
      ∃ s now, (b.execute s now item.order).reply = .broke
  | _ => True

def Event.deed? : Event → Option Deed
  | .phase _ after => some (.enter after)
  | .validating item => some (.examine item)
  | .duplicate item => some (.duplicate item)
  | .objected item _ => some (.objected item)
  | .cleared item => some (.cleared item)
  | .quoted item => some (.quote item)
  | .called item => some (.call item)
  | .answered item outcome _ => some (.answer item outcome)
  | .broke item => some (.broke item)
  | .overrun item => some (.overrun item)
  | .recorded item s => some (.record item s)
  | .notified item s => some (.notify item s)
  | _ => none

namespace Trace

variable {tr : Trace} {t : Thread} {n : Nat} {events : List Event}

/-- The events of worker `n`. -/
def ofWorker (tr : Trace) (n : Nat) : Trace := tr.filter fun e => e.1 = .worker n

/-- What worker `n` did. -/
def deeds (tr : Trace) (n : Nat) : List Deed := (tr.ofWorker n).pick Event.deed?

/-- The phases of worker `n`, which begins idle. -/
def phases (tr : Trace) (n : Nat) : List Phase := .idle :: (tr.deeds n).filterMap Deed.phase?

theorem deeds_step_self :
    (tr ++ ofStep (.worker n) events).deeds n = tr.deeds n ++ events.filterMap Event.deed? := by
  have hself : (tr ++ ofStep (.worker n) events).ofWorker n =
      tr.ofWorker n ++ ofStep (.worker n) events := ofThread_step_self ..
  rw [deeds, hself, pick_step, deeds]

theorem deeds_step_of_ne (h : t ≠ .worker n) : (tr ++ ofStep t events).deeds n = tr.deeds n := by
  have hother : (tr ++ ofStep t events).ofWorker n = tr.ofWorker n := ofThread_step_of_ne tr h events
  rw [deeds, hother, deeds]

end Trace

/-! ## What examining an order comes to -/

/-- Told whether the name is new and what the broker answers about the symbol. -/
def Order.ruling (o : Order) (isNew : Bool) (quote : Reply (Option Instrument)) :
    Reply (Option Objection) :=
  if isNew then
    match o.flaw with
    | some why => .answer (some why)
    | none =>
      match quote with
      | .broke => .broke
      | .answer i => .answer (o.clash i)
  else .answer (some .duplicate)

/-- **The gate says what the ruling is.** -/
theorem Gate.examine_fst {β : Type} (b : Broker β) (g : Gate) (s : β) (o : Order) :
    (g.examine b s o).1 = o.ruling (decide (o.id ∉ g.seen)) (b.quote s o.symbol).1 := by
  unfold examine enter Order.ruling
  by_cases hseen : o.id ∈ g.seen
  · simp [hseen]
  · cases hflaw : o.flaw with
    | some why => simp [hseen]
    | none =>
      obtain ⟨reply, s'⟩ := b.quote s o.symbol
      cases reply <;> simp [hseen]

section Ruling

variable {o : Order} {quote : Reply (Option Instrument)}

theorem Order.ruling_of_flaw {why : Objection} (h : o.flaw = some why) :
    o.ruling true quote = .answer (some why) := by
  simp [ruling, h]

theorem Order.ruling_broke (h : o.flaw = none) : o.ruling true .broke = .broke := by
  simp [ruling, h]

theorem Order.ruling_answer (h : o.flaw = none) (i : Option Instrument) :
    o.ruling true (.answer i) = .answer (o.clash i) := by
  simp [ruling, h]

end Ruling

/-! ## Rounds -/

/-- An item in a worker's hands, and what is answered about it. -/
structure Round where
  item : Item
  /-- Was its name new to the gate? -/
  isNew : Bool
  /-- What the broker answers about its symbol, if it is asked. -/
  quote : Reply (Option Instrument)
  /-- What the broker answers to the execution calls. -/
  replies : List (Reply Outcome)
  /-- Is there another call to make, which has no number? -/
  overrun : Bool
  /-- What is recorded. -/
  settlement : Settlement

/-- From taking an item to having it examined. -/
def opening (item : Item) : List Deed :=
  [.enter .dequeuing, .enter .validating, .examine item]

/-- An execution call and what becomes of it. -/
def exchange (item : Item) : Reply Outcome → List Deed
  | .answer outcome => [.call item, .answer item outcome]
  | .broke => [.call item, .broke item]

namespace Round

def ruling (r : Round) : Reply (Option Objection) := r.item.order.ruling r.isNew r.quote

/-- Does the gate let the item through? -/
def cleared (r : Round) : Bool :=
  match r.ruling with
  | .answer none => true
  | .answer (some _) | .broke => false

/-- Is the broker asked for the symbol? -/
def asked (r : Round) : Bool := r.isNew && r.item.order.flaw.isNone

/-- What leads to the ruling. -/
def examination (r : Round) : List Deed :=
  (if r.isNew then [] else [.duplicate r.item]) ++ (if r.asked then [.quote r.item] else [])

/-- The ruling, and what follows it. -/
def pursuit (r : Round) : List Deed :=
  match r.ruling with
  | .answer none => [.cleared r.item, .enter .executing] ++ r.replies.flatMap (exchange r.item) ++
      (if r.overrun then [.overrun r.item] else [])
  | .answer (some _) => [.objected r.item]
  | .broke => [.broke r.item]

/-- From taking the item to having it settled. -/
def handling (r : Round) : List Deed :=
  opening r.item ++ r.examination ++ r.pursuit ++ [.enter .recording]

/-- All that is done in a round: the item is examined, settled, recorded once, and its callback, if
it has one, is invoked once with what is recorded. -/
def deeds (r : Round) : List Deed :=
  r.handling ++ [.record r.item r.settlement] ++
    (if r.item.callback.isSome then [.notify r.item r.settlement] else []) ++ [.enter .idle]

def phases (r : Round) : List Phase :=
  [.dequeuing, .validating] ++ (if r.cleared then [.executing] else []) ++ [.recording, .idle]

/-- What the protocol asks of a round, at broker `b` and under a rule for retries. -/
structure Kept {β : Type} (b : Broker β) (rule : RetryRule) (r : Round) : Prop where
  /-- If the broker is asked for the symbol, the answer is the broker's. -/
  quoted : r.asked = true → ∃ s, (b.quote s r.item.order.symbol).1 = r.quote
  /-- The ruling is what the gate says. -/
  examined : ∃ (g : Gate) (s : β), (g.examine b s r.item.order).1 = r.ruling
  /-- Execution calls are made for an item that the gate lets through, and for no other. -/
  called : r.replies ≠ [] ↔ r.cleared = true
  bounded : r.replies.length ≤ rule.maxRetries.toNat + 1
  /-- Another call is made after a failure that the rule retries, and after nothing else. -/
  retried : ∀ reply ∈ r.replies.dropLast,
    ∃ failure, reply = .answer (.failed failure) ∧ rule.retries failure = true
  /-- Only after the most calls that have numbers, all of them such failures, does the next have none. -/
  unnumbered : r.overrun = true → rule.maxRetries = 0xFFFFFFFF ∧
    r.replies.length = RetryRule.mostCalls ∧ ∀ reply ∈ r.replies,
      ∃ failure, reply = .answer (.failed failure) ∧ rule.retries failure = true
  settles : Settles r.item r.settlement

theorem cleared_iff (r : Round) : r.cleared = true ↔ r.ruling = .answer none := by
  unfold cleared
  split <;> simp [*]

variable {r : Round}

/-- What the gate says rests on its names and on the broker's answer, if it asks for one. -/
theorem exists_examine {β : Type} {b : Broker β} (s₀ : β)
    (hq : r.asked = true → ∃ s, (b.quote s r.item.order.symbol).1 = r.quote) :
    ∃ (g : Gate) (s : β), (g.examine b s r.item.order).1 = r.ruling := by
  cases hnew : r.isNew with
  | false =>
    refine ⟨⟨[r.item.order.id]⟩, s₀, ?_⟩
    rw [Gate.examine_fst, ruling, hnew]
    simp [Order.ruling]
  | true =>
    cases hf : r.item.order.flaw with
    | some why =>
      refine ⟨Gate.empty, s₀, ?_⟩
      rw [Gate.examine_fst, ruling, hnew, Order.ruling_of_flaw hf]
      exact Order.ruling_of_flaw hf
    | none =>
      obtain ⟨s, hs⟩ := hq (by rw [asked, hnew, hf]; rfl)
      refine ⟨Gate.empty, s, ?_⟩
      rw [Gate.examine_fst, hs, ruling, hnew]
      rfl

theorem examination_of_flaw {why : Objection} (hnew : r.isNew = true)
    (hf : r.item.order.flaw = some why) : r.examination = [] := by
  rw [examination, asked, hnew, hf]
  rfl

/-- The broker is asked about an item that is new and sound. -/
theorem examination_of_sound (hnew : r.isNew = true) (hf : r.item.order.flaw = none) :
    r.examination = [.quote r.item] := by
  rw [examination, asked, hnew, hf]
  rfl

theorem deeds_of_callback (h : r.item.callback.isSome = true) :
    r.deeds = r.handling ++ [.record r.item r.settlement, .notify r.item r.settlement] ++
      [.enter .idle] := by
  rw [deeds, if_pos h, List.append_assoc r.handling]
  rfl

theorem deeds_of_no_callback (h : r.item.callback = none) :
    r.deeds = r.handling ++ [.record r.item r.settlement] ++ [.enter .idle] := by
  rw [deeds, h, Option.isSome_none, if_neg Bool.false_ne_true, List.append_nil]

end Round

/-! ## From the start until the end -/

/-- What a worker does from its start until it stops. -/
def shift (rounds : List Round) : List Deed :=
  rounds.flatMap Round.deeds ++ [.enter .dequeuing, .enter .stopped]

/-- Where a worker passes from its start until it stops. -/
def path (rounds : List Round) : List Phase :=
  .idle :: rounds.flatMap Round.phases ++ [.dequeuing, .stopped]

/-- No phase is entered in an execution call. -/
theorem filterMap_phase_exchanges (item : Item) (replies : List (Reply Outcome)) :
    (replies.flatMap (exchange item)).filterMap Deed.phase? = [] := by
  induction replies with
  | nil => rfl
  | cons reply replies ih =>
    rw [List.flatMap_cons, List.filterMap_append, ih]
    cases reply <;> rfl

theorem Round.filterMap_phase_deeds (r : Round) : r.deeds.filterMap Deed.phase? = r.phases := by
  have hpursuit : r.pursuit.filterMap Deed.phase? = if r.cleared then [.executing] else [] := by
    unfold pursuit cleared
    split
    · rw [List.filterMap_append, List.filterMap_append, filterMap_phase_exchanges]
      cases r.overrun <;> rfl
    · rfl
    · rfl
  have hexamination : r.examination.filterMap Deed.phase? = [] := by
    unfold examination
    cases r.isNew <;> cases r.asked <;> rfl
  have hnotify : (if r.item.callback.isSome then [Deed.notify r.item r.settlement]
      else []).filterMap Deed.phase? = [] := by
    split <;> rfl
  simp only [deeds, handling, List.filterMap_append, hpursuit, hexamination, hnotify, List.append_nil]
  rw [List.append_assoc, List.append_assoc]
  rfl

theorem filterMap_phase_rounds (rounds : List Round) :
    (rounds.flatMap Round.deeds).filterMap Deed.phase? = rounds.flatMap Round.phases := by
  rw [List.filterMap_flatMap]
  exact List.flatMap_congr fun r _ => r.filterMap_phase_deeds

/-- The deeds of a shift lead along its path. -/
theorem path_eq (rounds : List Round) :
    path rounds = .idle :: (shift rounds).filterMap Deed.phase? := by
  rw [shift, List.filterMap_append, filterMap_phase_rounds]
  rfl

end DealDesk
