import DealDesk.Desk.Run

/-!
# What a step of a desk can do

* `Performs` — the steps of a program, one constructor for each.
* `Works` — the steps of a worker, one constructor for each.
* `Moves` — a step of either kind, put back into the desk.
* `perform_cases`, `work_cases`, `step_cases` — the step functions do nothing else.

Later proofs split into these cases and do not open the step functions.
-/

namespace DealDesk

namespace Desk

variable {β : Type}

/-! ## Programs -/

/-- `Performs t d p d' p' events`: one step of program `p` in the hands of thread `t`. -/
inductive Performs (t : Thread) (d : Desk β) :
    Program → Desk β → Program → List Event → Prop
  | deliver (box : Nat) (calls : List Call) :
      Performs t d ⟨none, .deliver box :: calls⟩ d ⟨none, calls⟩ []
  | fail (calls : List Call) : Performs t d ⟨none, .fail :: calls⟩ d ⟨none, calls⟩ []
  | receive (order : Order) (callback : Option (List Call)) (calls : List Call)
      (h : d.accepting = true) :
      Performs t d ⟨none, .submit order callback :: calls⟩ d ⟨some (.draw order callback), calls⟩
        [.received order]
  | refuse (order : Order) (callback : Option (List Call)) (calls : List Call)
      (h : d.accepting = false) :
      Performs t d ⟨none, .submit order callback :: calls⟩ d ⟨none, calls⟩ [.refused order]
  | startAgain (calls : List Call) (h : d.lock = none) (hl : d.lifecycle = .running) :
      Performs t d ⟨none, .start :: calls⟩ d ⟨none, calls⟩ [.alreadyOpen]
  | startLate (calls : List Call) (h : d.lock = none) (hl : d.lifecycle = .stopped) :
      Performs t d ⟨none, .start :: calls⟩ d ⟨none, calls⟩ [.startRefused]
  | start (calls : List Call) (h : d.lock = none) (hl : d.lifecycle = .idle) :
      Performs t d ⟨none, .start :: calls⟩ d.openUp ⟨none, calls⟩
        [.opening d.settings.workers.toNat, .opened]
  | stopRunning (calls : List Call) (h : d.lock = none) (hl : d.lifecycle = .running) :
      Performs t d ⟨none, .stop :: calls⟩
        { d with lock := some t, accepting := false, lifecycle := .stopped }
        ⟨some (.close (some (List.range d.workers.length))), calls⟩ []
  | stopQuiet (calls : List Call) (h : d.lock = none) (hl : d.lifecycle ≠ .running) :
      Performs t d ⟨none, .stop :: calls⟩
        { d with lock := some t, accepting := false, lifecycle := .stopped }
        ⟨some (.close none), calls⟩ []
  | draw (order : Order) (callback : Option (List Call)) (calls : List Call) :
      Performs t d ⟨some (.draw order callback), calls⟩
        { d with register := d.register.drawSequence.2 }
        ⟨some (.enqueue ⟨order, d.register.nextSequence, callback⟩), calls⟩ []
  | enqueue (item : Item) (calls : List Call) (h : d.backlog.closed = false) :
      Performs t d ⟨some (.enqueue item), calls⟩
        { d with backlog := { d.backlog with items := d.backlog.items ++ [item] } }
        ⟨none, calls⟩ [.accepted item]
  | refuseLate (item : Item) (calls : List Call) (h : d.backlog.closed = true) :
      Performs t d ⟨some (.enqueue item), calls⟩ d ⟨none, calls⟩ [.refusedLate item.order]
  | closeQuiet (calls : List Call) :
      Performs t d ⟨some (.close none), calls⟩ { d with backlog := d.backlog.close, lock := none }
        ⟨none, calls⟩ []
  | close (workers : List Nat) (calls : List Call) :
      Performs t d ⟨some (.close (some workers)), calls⟩ { d with backlog := d.backlog.close }
        ⟨some (.join workers), calls⟩ [.draining d.backlog.depth]
  | leave (calls : List Call) :
      Performs t d ⟨some (.join []), calls⟩ { d with lock := none } ⟨none, calls⟩ [.joined]
  | skip (n : Nat) (rest : List Nat) (calls : List Call) (h : t = .worker n) :
      Performs t d ⟨some (.join (n :: rest)), calls⟩ d ⟨some (.join rest), calls⟩ [.skippedSelf]
  | join (n : Nat) (rest : List Nat) (calls : List Call) (h : d.hasStopped n = true) :
      Performs t d ⟨some (.join (n :: rest)), calls⟩ d ⟨some (.join rest), calls⟩ []

theorem begin_cases {t : Thread} {d d' : Desk β} {call : Call} {calls : List Call}
    {pending : Option Pending} {events : List Event}
    (h : d.begin t call = some (d', pending, events)) :
    Performs t d ⟨none, call :: calls⟩ d' ⟨pending, calls⟩ events := by
  cases call with
  | deliver box => cases h; exact .deliver box calls
  | fail => cases h; exact .fail calls
  | submit order callback =>
    simp only [begin] at h
    split at h
    · rename_i ha; cases h; exact .receive order callback calls ha
    · rename_i ha; cases h; exact .refuse order callback calls (by simpa using ha)
  | start =>
    simp only [begin, Option.isSome_iff_ne_none] at h
    split at h
    · cases h
    · rename_i hlock
      have hlock : d.lock = none := by simpa using hlock
      split at h
      · rename_i hl; cases h; exact .startAgain calls hlock hl
      · rename_i hl; cases h; exact .startLate calls hlock hl
      · rename_i hl; cases h; exact .start calls hlock hl
  | stop =>
    simp only [begin, Option.isSome_iff_ne_none] at h
    split at h
    · cases h
    · rename_i hlock
      have hlock : d.lock = none := by simpa using hlock
      cases hl : d.lifecycle with
      | idle =>
        simp only [hl] at h; cases h
        exact .stopQuiet calls hlock (by simp [hl])
      | running =>
        simp only [hl] at h; cases h
        exact .stopRunning calls hlock hl
      | stopped =>
        simp only [hl] at h; cases h
        exact .stopQuiet calls hlock (by simp [hl])

theorem resume_cases {t : Thread} {d d' : Desk β} {was : Pending} {calls : List Call}
    {pending : Option Pending} {events : List Event}
    (h : d.resume t was = some (d', pending, events)) :
    Performs t d ⟨some was, calls⟩ d' ⟨pending, calls⟩ events := by
  cases was with
  | draw order callback => cases h; exact .draw order callback calls
  | enqueue item =>
    simp only [resume, Backlog.enqueue] at h
    cases hc : d.backlog.closed with
    | true => simp only [hc, if_true] at h; cases h; exact .refuseLate item calls hc
    | false =>
      simp only [hc, Bool.false_eq_true, if_false] at h
      cases h
      simpa only [hc] using Performs.enqueue (t := t) item calls hc
  | close workers =>
    cases workers with
    | none => cases h; exact .closeQuiet calls
    | some workers => cases h; exact .close workers calls
  | join workers =>
    cases workers with
    | nil => cases h; exact .leave calls
    | cons n rest =>
      simp only [resume] at h
      split at h
      · rename_i ht; cases h; exact .skip n rest calls ht
      · split at h
        · rename_i hs; cases h; exact .join n rest calls hs
        · cases h

theorem perform_cases {t : Thread} {d d' : Desk β} {p p' : Program} {events : List Event}
    (h : d.perform t p = some (d', p', events)) : Performs t d p d' p' events := by
  obtain ⟨pending, calls⟩ := p
  cases pending with
  | some was =>
    simp only [perform, Option.map_eq_some_iff] at h
    obtain ⟨⟨d₁, pending, events₁⟩, hr, he⟩ := h
    cases he
    exact resume_cases hr
  | none =>
    cases calls with
    | nil => cases h
    | cons call calls =>
      simp only [perform, Option.map_eq_some_iff] at h
      obtain ⟨⟨d₁, pending, events₁⟩, hb, he⟩ := h
      cases he
      exact begin_cases hb

/-! ## Workers -/

/-- The settlement of an order the work on which broke off. -/
def lost (d : Desk β) (item : Item) : Settlement :=
  Settlement.refused d.now item.order .connectionError breakText

/-- `Works b d n p d' p' events`: one step of worker `n`, which stands at `p`. -/
inductive Works (b : Broker β) (d : Desk β) (n : Nat) :
    Position → Desk β → Position → List Event → Prop
  | rise : Works b d n .starting d .dequeuing [.started, .phase .idle .dequeuing]
  | take (item : Item) (rest : List Item) (h : d.backlog.items = item :: rest) :
      Works b d n .dequeuing { d with backlog := { d.backlog with items := rest } }
        (.validating item) [.phase .dequeuing .validating, .validating item]
  | retire (h : d.backlog.items = []) (hc : d.backlog.closed = true) :
      Works b d n .dequeuing d .stopped [.phase .dequeuing .stopped, .ended]
  | duplicate (item : Item) (h : item.order.id ∈ d.gate.seen) :
      Works b d n (.validating item) d
        (.recording item
          ((Objection.duplicate.settlement d.now item.order).withSequence item.sequence))
        [.duplicate item, .objected item (Objection.duplicate.settlement d.now item.order),
          .phase .validating .recording]
  | flawed (item : Item) (why : Objection) (h : item.order.id ∉ d.gate.seen)
      (hf : item.order.flaw = some why) :
      Works b d n (.validating item) { d with gate := ⟨item.order.id :: d.gate.seen⟩ }
        (.recording item ((why.settlement d.now item.order).withSequence item.sequence))
        [.objected item (why.settlement d.now item.order), .phase .validating .recording]
  | enter (item : Item) (h : item.order.id ∉ d.gate.seen) (hf : item.order.flaw = none) :
      Works b d n (.validating item) { d with gate := ⟨item.order.id :: d.gate.seen⟩ }
        (.quoting item) []
  | quoteBroke (item : Item) (s : β)
      (h : b.quote d.broker item.order.symbol = (.broke, s)) :
      Works b d n (.quoting item) { d with broker := s }
        (.recording item ((d.lost item).withSequence item.sequence))
        [.quoted item, .broke item, .phase .validating .recording]
  | clash (item : Item) (i : Option Instrument) (s : β) (why : Objection)
      (h : b.quote d.broker item.order.symbol = (.answer i, s))
      (hc : item.order.clash i = some why) :
      Works b d n (.quoting item) { d with broker := s }
        (.recording item ((why.settlement d.now item.order).withSequence item.sequence))
        [.quoted item, .objected item (why.settlement d.now item.order),
          .phase .validating .recording]
  | clear (item : Item) (i : Option Instrument) (s : β)
      (h : b.quote d.broker item.order.symbol = (.answer i, s))
      (hc : item.order.clash i = none) :
      Works b d n (.quoting item) { d with broker := s } (.calling item 0)
        [.quoted item, .cleared item, .phase .validating .executing]
  | call (item : Item) (attempt number : UInt32) (h : RetryRule.ordinal? attempt = some number) :
      Works b d n (.calling item attempt) d (.awaiting item attempt)
        ((if attempt = 0 then [] else [.waiting item number d.settings.retryRule.maxAttempts
          (d.settings.retryRule.backoff attempt)]) ++ [.called item])
  | overrun (item : Item) (attempt : UInt32) (h : RetryRule.ordinal? attempt = none) :
      Works b d n (.calling item attempt) d
        (.recording item ((d.lost item).withSequence item.sequence))
        [.overrun item, .phase .executing .recording]
  | executeBroke (item : Item) (attempt : UInt32)
      (h : (b.execute d.broker d.now item.order).reply = .broke) :
      Works b d n (.awaiting item attempt)
        { d with broker := (b.execute d.broker d.now item.order).state }
        (.recording item ((d.lost item).withSequence item.sequence))
        [.broke item, .phase .executing .recording]
  | again (item : Item) (attempt : UInt32) (outcome : Outcome) (failure : Failure)
      (h : (b.execute d.broker d.now item.order).reply = .answer outcome)
      (hn : d.settings.retryRule.next d.now item.order attempt outcome = .again failure) :
      Works b d n (.awaiting item attempt)
        { d with broker := (b.execute d.broker d.now item.order).state }
        (.calling item (attempt + 1))
        (.answered item outcome (b.execute d.broker d.now item.order).delay ::
          (b.notes outcome).map .noted ++ [.transient failure])
  | settle (item : Item) (attempt : UInt32) (outcome : Outcome) (s : Settlement)
      (h : (b.execute d.broker d.now item.order).reply = .answer outcome)
      (hn : d.settings.retryRule.next d.now item.order attempt outcome = .settle s) :
      Works b d n (.awaiting item attempt)
        { d with broker := (b.execute d.broker d.now item.order).state }
        (.recording item (s.withSequence item.sequence))
        (.answered item outcome (b.execute d.broker d.now item.order).delay ::
          (b.notes outcome).map .noted ++ [if s.isSuccess then .executed s else .failed s]
          ++ [.phase .executing .recording])
  | record (item : Item) (s : Settlement) (h : item.callback = none) :
      Works b d n (.recording item s) { d with register := d.register.record s } .dequeuing
        [.recorded item s, .phase .recording .idle, .phase .idle .dequeuing]
  | recordAndNotify (item : Item) (s : Settlement) (calls : List Call)
      (h : item.callback = some calls) :
      Works b d n (.recording item s) { d with register := d.register.record s }
        (.notifying item s (Program.ofCalls calls)) [.recorded item s, .notified item s]
  | finish (item : Item) (s : Settlement) :
      Works b d n (.notifying item s ⟨none, []⟩) d .dequeuing
        [.phase .recording .idle, .phase .idle .dequeuing]
  | breakOff (item : Item) (s : Settlement) (calls : List Call) :
      Works b d n (.notifying item s ⟨none, .fail :: calls⟩) d .dequeuing
        [.callbackBroke item, .phase .recording .idle, .phase .idle .dequeuing]
  | deliver (item : Item) (s : Settlement) (box : Nat) (calls : List Call) :
      Works b d n (.notifying item s ⟨none, .deliver box :: calls⟩) d
        (.notifying item s ⟨none, calls⟩) [.delivered box s]
  | act (item : Item) (s : Settlement) (p : Program) (d' : Desk β) (p' : Program)
      (events : List Event) (h : Performs (.worker n) d p d' p' events)
      (hd : ∀ box calls, p ≠ ⟨none, .deliver box :: calls⟩)
      (hf : ∀ calls, p ≠ ⟨none, .fail :: calls⟩) :
      Works b d n (.notifying item s p) d' (.notifying item s p') events

theorem showToGate_cases {b : Broker β} {n : Nat} (d : Desk β) (item : Item) :
    Works b d n (.validating item) (d.showToGate item).1 (d.showToGate item).2.1
      (d.showToGate item).2.2 := by
  unfold showToGate
  by_cases h : item.order.id ∈ d.gate.seen
  · rw [show d.gate.enter item.order.id = (false, d.gate) by simp [Gate.enter, h]]
    exact .duplicate item h
  · rw [show d.gate.enter item.order.id = (true, ⟨item.order.id :: d.gate.seen⟩) by
      simp [Gate.enter, h]]
    cases hf : item.order.flaw with
    | none => exact .enter item h hf
    | some why => exact .flawed item why h hf

theorem askForSymbol_cases {b : Broker β} {n : Nat} (d : Desk β) (item : Item) :
    Works b d n (.quoting item) (d.askForSymbol b item).1 (d.askForSymbol b item).2.1
      (d.askForSymbol b item).2.2 := by
  unfold askForSymbol
  split
  · rename_i s h
    exact .quoteBroke item s h
  · rename_i i s h
    split
    · rename_i why hc
      exact .clash item i s why h hc
    · rename_i hc
      exact .clear item i s h hc

theorem makeCall_cases {b : Broker β} {n : Nat} (d : Desk β) (item : Item) (attempt : UInt32) :
    Works b d n (.calling item attempt) d (d.makeCall item attempt).1
      (d.makeCall item attempt).2 := by
  unfold makeCall
  split
  · rename_i h
    exact .overrun item attempt h
  · rename_i number h
    exact .call item attempt number h

theorem takeAnswer_cases {b : Broker β} {n : Nat} (d : Desk β) (item : Item) (attempt : UInt32) :
    Works b d n (.awaiting item attempt) (d.takeAnswer b item attempt).1
      (d.takeAnswer b item attempt).2.1 (d.takeAnswer b item attempt).2.2 := by
  unfold takeAnswer
  dsimp only
  split
  · rename_i h
    exact .executeBroke item attempt h
  · rename_i outcome h
    split
    · rename_i failure hn
      exact .again item attempt outcome failure h hn
    · rename_i s hn
      exact .settle item attempt outcome s h hn

theorem notify_cases {b : Broker β} {n : Nat} {d d' : Desk β} {item : Item} {s : Settlement}
    {p : Program} {position : Position} {events : List Event}
    (h : d.notify (.worker n) item s p = some (d', position, events)) :
    Works b d n (.notifying item s p) d' position events := by
  obtain ⟨pending, calls⟩ := p
  unfold notify at h
  split at h
  · rename_i hp hc
    cases hp; cases hc; cases h
    exact .finish item s
  · rename_i calls hp hc
    cases hp; cases hc; cases h
    exact .breakOff item s calls
  · rename_i box calls hp hc
    cases hp; cases hc; cases h
    exact .deliver item s box calls
  · rename_i _ _ hnil hfail hdeliver
    simp only [Option.map_eq_some_iff] at h
    obtain ⟨⟨d₁, p', events₁⟩, hp, he⟩ := h
    cases he
    refine .act item s _ d₁ p' events₁ (perform_cases hp) ?_ ?_
    · rintro box calls ⟨rfl, rfl⟩
      exact hdeliver box calls rfl rfl
    · rintro calls ⟨rfl, rfl⟩
      exact hfail calls rfl rfl

theorem work_cases {b : Broker β} {n : Nat} {d d' : Desk β} {p p' : Position}
    {events : List Event} (h : d.work b n p = some (d', p', events)) :
    Works b d n p d' p' events := by
  cases p with
  | starting => cases h; exact .rise
  | dequeuing =>
    simp only [work, Backlog.dequeue] at h
    cases hi : d.backlog.items with
    | nil =>
      cases hc : d.backlog.closed with
      | true => simp only [hi, hc, if_true] at h; cases h; exact .retire hi hc
      | false => simp only [hi, hc, Bool.false_eq_true, if_false] at h; cases h
    | cons item rest => simp only [hi] at h; cases h; exact .take item rest hi
  | validating item =>
    have hw := showToGate_cases (b := b) (n := n) d item
    rw [Option.some.inj h] at hw
    exact hw
  | quoting item =>
    have hw := askForSymbol_cases (b := b) (n := n) d item
    rw [Option.some.inj h] at hw
    exact hw
  | calling item attempt =>
    have hw := makeCall_cases (b := b) (n := n) d item attempt
    obtain ⟨rfl, he⟩ := Prod.mk.inj (Option.some.inj h)
    rw [he] at hw
    exact hw
  | awaiting item attempt =>
    have hw := takeAnswer_cases (b := b) (n := n) d item attempt
    rw [Option.some.inj h] at hw
    exact hw
  | recording item s =>
    simp only [work, recordItem, Option.some.injEq] at h
    cases hc : item.callback with
    | none => simp only [hc] at h; cases h; exact .record item s hc
    | some calls => simp only [hc] at h; cases h; exact .recordAndNotify item s calls hc
  | notifying item s p => exact notify_cases h
  | stopped => cases h

/-! ## Threads -/

/-- `Moves b t d d' events`: one step of thread `t`. -/
inductive Moves (b : Broker β) : Thread → Desk β → Desk β → List Event → Prop
  | caller {n : Nat} {d d' : Desk β} {p p' : Program} {events : List Event}
      (hat : d.callers[n]? = some p) (h : Performs (.caller n) d p d' p' events) :
      Moves b (.caller n) d { d' with callers := d'.callers.set n p' } events
  | worker {n : Nat} {d d' : Desk β} {p p' : Position} {events : List Event}
      (hat : d.workers[n]? = some p) (h : Works b d n p d' p' events) :
      Moves b (.worker n) d { d' with workers := d'.workers.set n p' } events

theorem step_cases {b : Broker β} {t : Thread} {d d' : Desk β} {events : List Event}
    (h : d.step b t = some (d', events)) : Moves b t d d' events := by
  cases t with
  | caller n =>
    simp only [step] at h
    split at h
    · cases h
    · rename_i p hp
      simp only [Option.map_eq_some_iff] at h
      obtain ⟨⟨d₁, p', events₁⟩, hd, he⟩ := h
      cases he
      exact .caller hp (perform_cases hd)
  | worker n =>
    simp only [step] at h
    split at h
    · cases h
    · rename_i p hp
      simp only [Option.map_eq_some_iff] at h
      obtain ⟨⟨d₁, p', events₁⟩, hd, he⟩ := h
      cases he
      exact .worker hp (work_cases hd)

end Desk

end DealDesk
