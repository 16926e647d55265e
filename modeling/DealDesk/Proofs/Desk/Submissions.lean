import DealDesk.Proofs.Counter
import DealDesk.Proofs.Desk.Custody

/-!
# What a thread submits

* `Desk.pending?` — the call that a thread is in the middle of, its own or that of a callback.
* `overThreads` — a quantity of the calls under way, summed over the threads.
* `Moves.pending_cases` — a step goes on with the calls of its thread, or has nothing to do with
  calls; each other thread stays where it is.
* `Numbered` — each number is the next one, and those that a thread draws come in order.
* `Submissions` — a thread has its orders accepted in the order in which it submitted them, under
  numbers that come in the order in which they were drawn.

`follow_submissions` is the main result. Nothing is said about the orders of two threads: a thread
that draws the lower number may be the later one to have its order accepted.
-/

namespace DealDesk

/-! ## Kinds of events -/

namespace Event

/-- An order that a thread submits, whether the desk takes it or not. -/
def submitted? : Event → Option Order
  | .received order | .refused order => some order
  | _ => none

/-- An order that the desk takes up. -/
def received? : Event → Option Order
  | .received order => some order
  | _ => none

end Event

namespace Trace

def submitted (tr : Trace) : List Order := tr.pick Event.submitted?

def received (tr : Trace) : List Order := tr.pick Event.received?

end Trace

/-! ## Calls under way -/

namespace Pending

/-- The order of a submission under way. -/
def underway : Option Pending → List Order
  | some (.draw order _) => [order]
  | some (.enqueue item) => [item.order]
  | _ => []

/-- The number drawn for an item about to be enqueued. -/
def drawn : Option Pending → List UInt64
  | some (.enqueue item) => [item.sequence]
  | _ => []

/-- Is a number to be drawn next? -/
def draws : Option Pending → Nat
  | some (.draw _ _) => 1
  | _ => 0

end Pending

/-- The call that the callback in a worker's hands is in the middle of. -/
def Position.pending : Position → Option Pending
  | .notifying _ _ p => p.pending
  | _ => none

namespace Desk

variable {β : Type} {b : Broker β} {n : Nat} {t : Thread} {d d' : Desk β} {p p' : Position}
  {q q' : Program} {events : List Event} {tr : Trace} {first : UInt64}

/-- The call that a thread is in the middle of. -/
def pending? (d : Desk β) : Thread → Option Pending
  | .caller n => d.callers[n]?.bind Program.pending
  | .worker n => d.workers[n]?.bind Position.pending

/-- A quantity of the calls under way, summed over the threads. -/
def overThreads {M : Type} [AddCommMonoid M] (f : Option Pending → M) (d : Desk β) : M :=
  (d.callers.map fun q => f q.pending).sum + overWorkers (fun p => f p.pending) d

/-- How many threads draw a number next. -/
def undrawn (d : Desk β) : Nat := overThreads Pending.draws d

/-- A step that submits nothing. -/
structure SubmitsNothing (d d' : Desk β) (events : List Event) : Prop where
  accepted : events.filterMap Event.accepted? = []
  submitted : events.filterMap Event.submitted? = []
  received : events.filterMap Event.received? = []
  nextSequence : d'.register.nextSequence = d.register.nextSequence

/-- A worker goes on with the calls of a callback, or its step has nothing to do with calls. -/
theorem Works.pending_cases (h : Works b d n p d' p' events) :
    (∃ q q', p.pending = q.pending ∧ p'.pending = q'.pending ∧
      Performs (.worker n) d q d' q' events) ∨
    (p.pending = none ∧ p'.pending = none ∧ SubmitsNothing d d' events) := by
  cases h with
  | call item attempt number hnumber =>
    exact .inr ⟨rfl, rfl, filterMap_call rfl .., filterMap_call rfl .., filterMap_call rfl .., rfl⟩
  | again item attempt outcome failure h hn =>
    refine .inr ⟨rfl, rfl, ?_, ?_, ?_, rfl⟩ <;> rw [filterMap_answer fun _ => rfl] <;> rfl
  | settle item attempt outcome s h hn =>
    refine .inr ⟨rfl, rfl, ?_, ?_, ?_, rfl⟩ <;>
      exact filterMap_settled (fun _ => rfl) (fun _ => rfl) (fun _ => rfl) ..
  | record item s h =>
    exact .inr ⟨rfl, rfl, rfl, rfl, rfl, Register.record_nextSequence d.register s⟩
  | recordAndNotify item s calls h =>
    exact .inr ⟨rfl, rfl, rfl, rfl, rfl, Register.record_nextSequence d.register s⟩
  | act item s q d' q' events h hd hf => exact .inl ⟨q, q', rfl, rfl, h⟩
  | _ => exact .inr ⟨rfl, rfl, rfl, rfl, rfl, rfl⟩

theorem pending?_caller (hat : d.callers[n]? = some q) : d.pending? (.caller n) = q.pending := by
  rw [pending?, hat]
  rfl

theorem pending?_worker (hat : d.workers[n]? = some p) : d.pending? (.worker n) = p.pending := by
  rw [pending?, hat]
  rfl

/-- The call of a caller after its step. -/
theorem Performs.pending?_set (hat : d.callers[n]? = some q) (h : Performs t d q d' q' events) :
    pending? { d' with callers := d'.callers.set n q' } (.caller n) = q'.pending := by
  refine pending?_caller ?_
  rw [h.frame.callers]
  exact List.getElem?_set_self (List.getElem?_eq_some_iff.1 hat).1

/-- The call of a worker's callback after its step. -/
theorem Works.pending?_set (hz : d.Asleep) (hat : d.workers[n]? = some p)
    (h : Works b d n p d' p' events) :
    pending? { d' with workers := d'.workers.set n p' } (.worker n) = p'.pending := by
  refine pending?_worker ?_
  rw [h.workers_eq hz hat]
  exact List.getElem?_set_self (List.getElem?_eq_some_iff.1 hat).1

/-- A step moves no thread but its own. -/
theorem Moves.pending?_of_ne (hz : d.Asleep) (h : Moves b t d d' events) {u : Thread}
    (hu : t ≠ u) : d'.pending? u = d.pending? u := by
  cases h with
  | @caller n d d' q q' events hat h =>
    cases u with
    | caller m =>
      have hnm : n ≠ m := fun he => hu (congrArg Thread.caller he)
      show (d'.callers.set n q')[m]?.bind Program.pending = d.callers[m]?.bind Program.pending
      rw [List.getElem?_set_ne hnm, h.frame.callers]
    | worker m =>
      show d'.workers[m]?.bind Position.pending = d.workers[m]?.bind Position.pending
      rcases h.frame.workers with hw | ⟨hl, hw⟩
      · rw [hw]
      · -- the workers that a start brings in have no call under way
        rw [hw, hz hl, List.getElem?_replicate]
        split <;> rfl
  | @worker n d d' p p' events hat h =>
    cases u with
    | caller m =>
      show d'.callers[m]?.bind Program.pending = d.callers[m]?.bind Program.pending
      rw [h.callers_eq]
    | worker m =>
      have hnm : n ≠ m := fun he => hu (congrArg Thread.worker he)
      show (d'.workers.set n p')[m]?.bind Position.pending = d.workers[m]?.bind Position.pending
      rw [h.workers_eq hz hat, List.getElem?_set_ne hnm]

/-- **A step goes on with the calls of its thread, or has nothing to do with calls.** -/
theorem Moves.pending_cases (hz : d.Asleep) (h : Moves b t d d' events) :
    (∃ q q' d₁, d.pending? t = q.pending ∧ d'.pending? t = q'.pending ∧
      Performs t d q d₁ q' events ∧ d'.register = d₁.register) ∨
    (d.pending? t = none ∧ d'.pending? t = none ∧ SubmitsNothing d d' events) := by
  cases h with
  | @caller n d d' q q' events hat h =>
    exact .inl ⟨q, q', d', pending?_caller hat, h.pending?_set hat, h, rfl⟩
  | @worker n d d' p p' events hat h =>
    rw [pending?_worker hat, h.pending?_set hz hat]
    rcases h.pending_cases with ⟨q, q', hq, hq', hperforms⟩ | ⟨hp, hp', hnothing⟩
    · exact .inl ⟨q, q', d', hq, hq', hperforms, rfl⟩
    · exact .inr ⟨hp, hp', hnothing.accepted, hnothing.submitted, hnothing.received,
        hnothing.nextSequence⟩

/-! ## Orders and numbers on their way -/

/-- What is accepted was under way, and what is under way was submitted. -/
theorem Performs.underway_sublist (h : Performs t d q d' q' events) :
    ((events.filterMap Event.accepted?).map (·.order) ++ Pending.underway q'.pending).Sublist
      (Pending.underway q.pending ++ events.filterMap Event.submitted?) := by
  cases h with
  | refuse order callback calls h => exact List.nil_sublist _
  | refuseLate item calls h => exact List.nil_sublist _
  | _ => exact List.Sublist.refl _

/-- A program draws the next number for the order that it has under way, or it draws none. -/
theorem Performs.drawn_cases (h : Performs t d q d' q' events) :
    (((events.filterMap Event.accepted?).map (·.sequence) ++ Pending.drawn q'.pending).Sublist
        (Pending.drawn q.pending) ∧
      d'.register.nextSequence = d.register.nextSequence ∧
      Pending.draws q'.pending =
        Pending.draws q.pending + (events.filterMap Event.received?).length) ∨
    (events.filterMap Event.accepted? = [] ∧ events.filterMap Event.received? = [] ∧
      Pending.drawn q'.pending = [d.register.nextSequence] ∧
      d'.register.nextSequence = d.register.nextSequence + 1 ∧
      Pending.draws q.pending = 1 ∧ Pending.draws q'.pending = 0 ∧
      Pending.drawn q.pending = []) := by
  cases h with
  | draw order callback calls => exact .inr ⟨rfl, rfl, rfl, rfl, rfl, rfl, rfl⟩
  | refuseLate item calls h => exact .inl ⟨List.nil_sublist _, rfl, rfl⟩
  | _ => exact .inl ⟨List.Sublist.refl _, rfl, rfl⟩

theorem Moves.underway_sublist (hz : d.Asleep) (h : Moves b t d d' events) :
    ((events.filterMap Event.accepted?).map (·.order) ++
        Pending.underway (d'.pending? t)).Sublist
      (Pending.underway (d.pending? t) ++ events.filterMap Event.submitted?) := by
  rcases h.pending_cases hz with ⟨q, q', d₁, hq, hq', hperforms, -⟩ | ⟨hq, hq', hnothing⟩
  · rw [hq, hq']
    exact hperforms.underway_sublist
  · rw [hq, hq', hnothing.accepted, hnothing.submitted]
    exact List.Sublist.refl _

theorem Moves.drawn_cases (hz : d.Asleep) (h : Moves b t d d' events) :
    (((events.filterMap Event.accepted?).map (·.sequence) ++
        Pending.drawn (d'.pending? t)).Sublist (Pending.drawn (d.pending? t)) ∧
      d'.register.nextSequence = d.register.nextSequence ∧
      Pending.draws (d'.pending? t) =
        Pending.draws (d.pending? t) + (events.filterMap Event.received?).length) ∨
    (events.filterMap Event.accepted? = [] ∧ events.filterMap Event.received? = [] ∧
      Pending.drawn (d'.pending? t) = [d.register.nextSequence] ∧
      d'.register.nextSequence = d.register.nextSequence + 1 ∧
      Pending.draws (d.pending? t) = 1 ∧ Pending.draws (d'.pending? t) = 0 ∧
      Pending.drawn (d.pending? t) = []) := by
  rcases h.pending_cases hz with ⟨q, q', d₁, hq, hq', hperforms, hregister⟩ | ⟨hq, hq', hnothing⟩
  · rw [hq, hq', hregister]
    exact hperforms.drawn_cases
  · rw [hq, hq', hnothing.accepted, hnothing.received]
    exact .inl ⟨List.Sublist.refl _, hnothing.nextSequence, rfl⟩

/-- Only the thread that takes a step changes what is counted of the calls under way. -/
theorem Moves.overThreads_add {M : Type} [AddCommMonoid M] {f : Option Pending → M}
    (hf : f none = 0) (hz : d.Asleep) (h : Moves b t d d' events) :
    overThreads f d' + f (d.pending? t) = overThreads f d + f (d'.pending? t) := by
  cases h with
  | @caller n d d' q q' events hat h =>
    have hsum := sum_map_set (fun q => f q.pending) hat q'
    have hw : overWorkers (fun p => f p.pending) d' = overWorkers (fun p => f p.pending) d :=
      h.overWorkers_eq hf hz
    rw [pending?_caller hat, h.pending?_set hat, overThreads, overThreads]
    show ((d'.callers.set n q').map _).sum + overWorkers _ d' + _ = _
    rw [hw, h.frame.callers, add_right_comm, hsum]
    ac_rfl
  | @worker n d d' p p' events hat h =>
    have hsum := h.overWorkers_add (f := fun p => f p.pending) hz hat
    have hcallers : (d'.callers.map fun q => f q.pending).sum =
        (d.callers.map fun q => f q.pending).sum := by rw [h.callers_eq]
    rw [pending?_worker hat, h.pending?_set hz hat, overThreads, overThreads]
    show (d'.callers.map _).sum + overWorkers _ _ + _ = _
    rw [hcallers, add_assoc, hsum, add_assoc]

theorem Moves.undrawn_add (hz : d.Asleep) (h : Moves b t d d' events) :
    d'.undrawn + Pending.draws (d.pending? t) = d.undrawn + Pending.draws (d'.pending? t) :=
  h.overThreads_add rfl hz

/-- Before the first step no call is under way. -/
theorem pending?_start (settings : Settings) (s : β) (register : Register)
    (programs : List (List Call)) (t : Thread) :
    ((closed settings s register).withCallers programs).pending? t = none := by
  cases t with
  | caller n =>
    show (programs.map Program.ofCalls)[n]?.bind Program.pending = none
    rw [List.getElem?_map]
    cases programs[n]? <;> rfl
  | worker n => rfl

theorem overThreads_start {M : Type} [AddCommMonoid M] {f : Option Pending → M} (hf : f none = 0)
    (settings : Settings) (s : β) (register : Register) (programs : List (List Call)) :
    overThreads f ((closed settings s register).withCallers programs) = 0 := by
  show ((programs.map Program.ofCalls).map fun q => f q.pending).sum + 0 = 0
  rw [List.map_map, add_zero]
  refine List.sum_eq_zero fun x hx => ?_
  obtain ⟨calls, -, rfl⟩ := List.mem_map.1 hx
  exact hf

/-! ## The invariant -/

/-- So many numbers were drawn, and those of each thread are among them, in order. -/
structure Numbered (first : UInt64) (drawn : Nat) (d : Desk β) (tr : Trace) : Prop where
  next : d.register.nextSequence = first + UInt64.ofNat drawn
  count : drawn + d.undrawn = tr.received.length
  threads : ∀ t, ((tr.ofThread t).accepted.map (·.sequence) ++
    Pending.drawn (d.pending? t)).Sublist (counted first drawn)

/-- **A step draws the next number, or none.** -/
theorem Numbered.step {drawn : Nat} (hn : Numbered first drawn d tr) (hz : d.Asleep)
    (h : Moves b t d d' events) :
    ∃ drawn', Numbered first drawn' d' (tr ++ Trace.ofStep t events) := by
  have hundrawn := h.undrawn_add hz
  have hself := hn.threads t
  have hcount := hn.count
  -- the threads that do not step keep what they have drawn
  have others : ∀ {u}, t ≠ u → ∀ {more}, (counted first drawn).Sublist more →
      ((Trace.ofThread (tr ++ Trace.ofStep t events) u).accepted.map (·.sequence) ++
        Pending.drawn (d'.pending? u)).Sublist more := by
    intro u hu more hmore
    rw [Trace.ofThread_step_of_ne tr hu, h.pending?_of_ne hz hu]
    exact (hn.threads u).trans hmore
  have own : (Trace.ofThread (tr ++ Trace.ofStep t events) t).accepted.map (·.sequence) =
      (tr.ofThread t).accepted.map (·.sequence) ++
        (events.filterMap Event.accepted?).map (·.sequence) := by
    rw [Trace.ofThread_step_self, Trace.accepted_step, List.map_append]
  have received : (tr ++ Trace.ofStep t events).received.length =
      tr.received.length + (events.filterMap Event.received?).length := by
    rw [Trace.received, Trace.pick_step, List.length_append, Trace.received]
  rcases h.drawn_cases hz with ⟨hsub, hsame, hdraws⟩ |
    ⟨hnone, hnone', hdrawn', hsucc, hdraws, hdraws', hdrawn⟩
  · refine ⟨drawn, hsame.trans hn.next, by omega, fun u => ?_⟩
    by_cases hu : t = u
    · subst hu
      rw [own, List.append_assoc]
      exact (hsub.append_left _).trans hself
    · exact others hu (List.Sublist.refl _)
  · refine ⟨drawn + 1, ?_, ?_, fun u => ?_⟩
    · rw [hsucc, hn.next, UInt64.ofNat_add, add_assoc]
      rfl
    · rw [hnone', List.length_nil] at received
      omega
    · rw [counted_concat]
      by_cases hu : t = u
      · subst hu
        rw [hdrawn, List.append_nil] at hself
        rw [own, hnone, hdrawn', hn.next]
        simpa using hself.append_right [first + UInt64.ofNat drawn]
      · exact others hu (List.sublist_append_left _ _)

/-- Each thread has its orders accepted in the order in which it submitted them, and the numbers it
drew are among the numbers drawn so far, in order. -/
structure Submissions (first : UInt64) (d : Desk β) (tr : Trace) : Prop where
  asleep : d.Asleep
  placed : ∀ t, ((tr.ofThread t).accepted.map (·.order) ++
    Pending.underway (d.pending? t)).Sublist (tr.ofThread t).submitted
  numbered : ∃ drawn, Numbered first drawn d tr

namespace Submissions

theorem start (settings : Settings) (s : β) (register : Register) (programs : List (List Call)) :
    Submissions register.nextSequence ((closed settings s register).withCallers programs) [] where
  asleep _ := rfl
  placed t := by
    rw [pending?_start]
    exact List.Sublist.refl []
  numbered := by
    refine ⟨0, (add_zero _).symm, ?_, fun t => ?_⟩
    · rw [undrawn, overThreads_start rfl]
      rfl
    · rw [pending?_start]
      exact List.Sublist.refl []

theorem clock (now : Int64) (hs : Submissions first d tr) :
    Submissions first { d with now := now } tr := by
  obtain ⟨drawn, hn⟩ := hs.numbered
  exact ⟨hs.asleep, hs.placed, drawn, hn.next, hn.count, hn.threads⟩

theorem step (hs : Submissions first d tr) (h : Moves b t d d' events) :
    Submissions first d' (tr ++ Trace.ofStep t events) where
  asleep := h.asleep hs.asleep
  placed u := by
    by_cases hu : t = u
    · subst hu
      rw [Trace.ofThread_step_self, Trace.accepted_step, Trace.submitted, Trace.pick_step,
        ← Trace.submitted, List.map_append, List.append_assoc]
      refine ((h.underway_sublist hs.asleep).append_left _).trans ?_
      rw [← List.append_assoc]
      exact (hs.placed t).append_right _
    · rw [Trace.ofThread_step_of_ne tr hu, h.pending?_of_ne hs.asleep hu]
      exact hs.placed u
  numbered := by
    obtain ⟨drawn, hn⟩ := hs.numbered
    exact hn.step hs.asleep h

/-- What a thread has accepted it submitted, in this order. -/
theorem orders (hs : Submissions first d tr) (t : Thread) :
    ((tr.ofThread t).accepted.map (·.order)).Sublist (tr.ofThread t).submitted :=
  (List.sublist_append_left _ _).trans (hs.placed t)

/-- A thread has its orders accepted under numbers that come in the order of the counter. -/
theorem sequences (hs : Submissions first d tr) : ∃ drawn ≤ tr.received.length, ∀ t,
    ((tr.ofThread t).accepted.map (·.sequence)).Sublist (counted first drawn) := by
  obtain ⟨drawn, hn⟩ := hs.numbered
  have hcount := hn.count
  exact ⟨drawn, by omega, fun t => (List.sublist_append_left _ _).trans (hn.threads t)⟩

end Submissions

/-- **A thread has its orders accepted in order of submission, numbered upwards.** -/
theorem follow_submissions {settings : Settings} {s : β} {register : Register}
    {programs : List (List Call)} {schedule : List Turn} {d₀ d : Desk β} {tr : Trace}
    (hopen : open? settings s register = .ok d₀)
    (hrun : (d₀.withCallers programs).follow b schedule = some (d, tr)) :
    Submissions register.nextSequence d tr := by
  obtain ⟨rfl, -⟩ := open?_eq hopen
  exact follow_invariant (P := Submissions register.nextSequence) Submissions.clock
    Submissions.step (Submissions.start settings s register programs) hrun

end Desk

end DealDesk
