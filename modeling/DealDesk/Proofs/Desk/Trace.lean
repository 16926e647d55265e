import DealDesk.Proofs.Desk.Cases
import Mathlib.Algebra.BigOperators.Group.List.Basic
import Mathlib.Algebra.Order.BigOperators.Group.List
import Mathlib.Algebra.Order.Group.Multiset
import Mathlib.Data.Multiset.OrderedMonoid

/-!
# Traces of a run

* `Trace` — what the threads of a run did, in order; `Trace.pick` collects one kind of event, and
  `Trace.ofThread` what one thread did.
* `accepted`, `recorded`, `notified`, `delivered`, `asked`, `brokered`, `filled` — the kinds that
  later statements count.
* `follow_invariant` — what a step keeps, a run keeps.
* `run_follows` — the run of `Desk.run` is one of the schedules of `Desk.follow`.
* `overWorkers` — a quantity summed over the workers; `sum_map_set` says what moving one of them
  does, and `add_le_overWorkers` that two of them count twice.
-/

namespace DealDesk

/-! ## Kinds of events -/

namespace Event

/-- An order that a caller was told is accepted. -/
def accepted? : Event → Option Item
  | .accepted item => some item
  | _ => none

def recorded? : Event → Option (Item × Settlement)
  | .recorded item s => some (item, s)
  | _ => none

/-- A callback is invoked with a settlement. -/
def notified? : Event → Option (Item × Settlement)
  | .notified item s => some (item, s)
  | _ => none

def delivered? : Event → Option (Nat × Settlement)
  | .delivered box s => some (box, s)
  | _ => none

/-- The broker is asked for the symbol of an item. -/
def asked? : Event → Option Item
  | .quoted item => some item
  | _ => none

/-- The broker is asked for an item, called for it, answers, or breaks off. -/
def brokered? : Event → Option Item
  | .quoted item | .called item | .answered item _ _ | .broke item => some item
  | _ => none

/-- The broker answers with a fill. -/
def filled? : Event → Option Fill
  | .answered _ (.filled fill) _ => some fill
  | _ => none

end Event

/-- What the threads of a run did, in order. -/
abbrev Trace := List (Thread × Event)

namespace Trace

/-- The events of one kind. -/
def pick {α : Type} (f : Event → Option α) (tr : Trace) : List α := tr.filterMap fun e => f e.2

def accepted (tr : Trace) : List Item := tr.pick Event.accepted?

def recorded (tr : Trace) : List (Item × Settlement) := tr.pick Event.recorded?

def settlements (tr : Trace) : List Settlement := tr.recorded.map Prod.snd

def notified (tr : Trace) : List (Item × Settlement) := tr.pick Event.notified?

def delivered (tr : Trace) : List (Nat × Settlement) := tr.pick Event.delivered?

def asked (tr : Trace) : List Item := tr.pick Event.asked?

def brokered (tr : Trace) : List Item := tr.pick Event.brokered?

def filled (tr : Trace) : List Fill := tr.pick Event.filled?

/-- The events of one step of a thread. -/
def ofStep (t : Thread) (events : List Event) : Trace := events.map fun e => (t, e)

theorem pick_cons {α : Type} (f : Event → Option α) (e : Thread × Event) (tr : Trace) :
    pick f (e :: tr) = (f e.2).toList ++ tr.pick f := by
  rw [pick, List.filterMap_cons]
  cases f e.2 <;> rfl

theorem pick_append {α : Type} (f : Event → Option α) (tr tr' : Trace) :
    (tr ++ tr').pick f = tr.pick f ++ tr'.pick f := by
  simp [pick]

theorem pick_ofStep {α : Type} (f : Event → Option α) (t : Thread) (events : List Event) :
    (ofStep t events).pick f = events.filterMap f := by
  simp only [pick, ofStep, List.filterMap_map]
  rfl

/-- What a step adds to the events of one kind. -/
theorem pick_step {α : Type} (f : Event → Option α) (tr : Trace) (t : Thread)
    (events : List Event) :
    (tr ++ ofStep t events).pick f = tr.pick f ++ events.filterMap f := by
  rw [pick_append, pick_ofStep]

theorem settlements_step (tr : Trace) (t : Thread) (events : List Event) :
    (tr ++ ofStep t events).settlements =
      tr.settlements ++ (events.filterMap Event.recorded?).map Prod.snd := by
  rw [settlements, recorded, pick_step, List.map_append]
  rfl

theorem accepted_step (tr : Trace) (t : Thread) (events : List Event) :
    (tr ++ ofStep t events).accepted = tr.accepted ++ events.filterMap Event.accepted? :=
  pick_step ..

/-- A step without events of the kind adds none. -/
theorem pick_quiet {α : Type} {f : Event → Option α} {tr : Trace} {t : Thread}
    {events : List Event} (h : events.filterMap f = []) :
    (tr ++ ofStep t events).pick f = tr.pick f := by
  rw [pick_step, h, List.append_nil]

/-- What one thread did. -/
def ofThread (tr : Trace) (t : Thread) : Trace := tr.filter fun e => e.1 = t

theorem ofThread_step_self (tr : Trace) (t : Thread) (events : List Event) :
    (tr ++ ofStep t events).ofThread t = tr.ofThread t ++ ofStep t events := by
  have hall : (ofStep t events).ofThread t = ofStep t events := by
    refine List.filter_eq_self.2 fun e he => ?_
    obtain ⟨event, -, rfl⟩ := List.mem_map.1 he
    simp
  rw [ofThread, List.filter_append, ← ofThread, ← ofThread, hall]

theorem ofThread_step_of_ne (tr : Trace) {t u : Thread} (h : t ≠ u) (events : List Event) :
    (tr ++ ofStep t events).ofThread u = tr.ofThread u := by
  have hnone : (ofStep t events).ofThread u = [] := by
    refine List.filter_eq_nil_iff.2 fun e he => ?_
    obtain ⟨event, -, rfl⟩ := List.mem_map.1 he
    simpa using h
  rw [ofThread, List.filter_append, ← ofThread, ← ofThread, hnone, List.append_nil]

end Trace

namespace Desk

variable {β : Type} {b : Broker β}

/-! ## Runs -/

/-- **Whatever every step keeps holds after a run.** -/
theorem follow_invariant {P : Desk β → Trace → Prop}
    (hclock : ∀ {d tr} now, P d tr → P { d with now := now } tr)
    (hstep : ∀ {d d' tr t events}, P d tr → Moves b t d d' events →
      P d' (tr ++ Trace.ofStep t events)) :
    ∀ {schedule : List Turn} {d₀ d : Desk β} {tr₀ tr : Trace}, P d₀ tr₀ →
      d₀.follow b schedule = some (d, tr) → P d (tr₀ ++ tr)
  | [], d₀, d, tr₀, tr, h₀, h => by
    cases h
    rw [List.append_nil]
    exact h₀
  | turn :: rest, d₀, d, tr₀, tr, h₀, h => by
    simp only [follow, tick] at h
    split at h
    · cases h
    · rename_i d₁ events hs
      simp only [Option.map_eq_some_iff] at h
      obtain ⟨⟨d₂, later⟩, hf, he⟩ := h
      cases he
      have h₁ := hstep (hclock turn.now h₀) (step_cases hs)
      have h₂ := follow_invariant hclock hstep h₁ hf
      rwa [List.append_assoc] at h₂

/-- The same for what does not speak of the trace. -/
theorem follow_keeps {P : Desk β → Prop} (hclock : ∀ {d} now, P d → P { d with now := now })
    (hstep : ∀ {d d' t events}, P d → Moves b t d d' events → P d') {schedule : List Turn}
    {d₀ d : Desk β} {tr : Trace} (h₀ : P d₀) (h : d₀.follow b schedule = some (d, tr)) : P d :=
  @follow_invariant β b (fun d _ => P d) (fun now h => hclock now h) (fun h hm => hstep h hm)
    schedule d₀ d [] tr h₀ h

theorem follow_append {s₁ s₂ : List Turn} {d d₁ d₂ : Desk β} {tr₁ tr₂ : Trace}
    (h₁ : d.follow b s₁ = some (d₁, tr₁)) (h₂ : d₁.follow b s₂ = some (d₂, tr₂)) :
    d.follow b (s₁ ++ s₂) = some (d₂, tr₁ ++ tr₂) := by
  induction s₁ generalizing d tr₁ with
  | nil => cases h₁; simpa using h₂
  | cons turn rest ih =>
    simp only [follow, List.cons_append] at h₁ ⊢
    split at h₁
    · cases h₁
    · rename_i d' events hs
      simp only [Option.map_eq_some_iff] at h₁
      obtain ⟨⟨d₃, later⟩, hf, he⟩ := h₁
      cases he
      simp [ih hf]

theorem advance_follows {held : Bool} {d d' : Desk β} {tr : Trace}
    (h : d.advance b held = some (d', tr)) : ∃ schedule, d.follow b schedule = some (d', tr) := by
  obtain ⟨t, -, ht⟩ := List.exists_of_findSome?_eq_some h
  split at ht
  · cases ht
  · simp only [Option.map_eq_some_iff] at ht
    obtain ⟨⟨d₁, events⟩, hs, he⟩ := ht
    cases he
    refine ⟨[⟨t, d.now⟩], ?_⟩
    have hs : d.tick b ⟨t, d.now⟩ = some (d₁, events) := hs
    simp [follow, hs]

theorem runFor_follows (held : Bool) (fuel : Nat) (d : Desk β) :
    ∃ schedule, d.follow b schedule = some (runFor b held fuel d) := by
  induction fuel generalizing d with
  | zero => exact ⟨[], rfl⟩
  | succ fuel ih =>
    simp only [runFor]
    split
    · exact ⟨[], rfl⟩
    · rename_i d₁ events ha
      obtain ⟨s₁, h₁⟩ := advance_follows ha
      obtain ⟨s₂, h₂⟩ := ih d₁
      exact ⟨s₁ ++ s₂, follow_append h₁ h₂⟩

/-- **A desk that runs by itself follows some schedule.** -/
theorem run_follows (held : Bool) (d : Desk β) :
    ∃ schedule, d.follow b schedule = some (d.run b held) :=
  runFor_follows held d.budget d

/-! ## Quantities over the workers -/

/-- A quantity summed over the workers. -/
def overWorkers {M : Type} [AddCommMonoid M] (f : Position → M) (d : Desk β) : M :=
  (d.workers.map f).sum

theorem mem_overWorkers {α : Type} {f : Position → Multiset α} {d : Desk β} {a : α} :
    a ∈ overWorkers f d ↔ ∃ p ∈ d.workers, a ∈ f p := by
  unfold overWorkers
  induction d.workers with
  | nil => simp
  | cons p ps ih => simp [ih]

/-- A sum is one summand and a rest, which stays when that summand is replaced. -/
theorem exists_sum_rest {α M : Type} [AddCommMonoid M] (f : α → M) {l : List α} {n : Nat} {a : α}
    (h : l[n]? = some a) :
    ∃ rest, (l.map f).sum = rest + f a ∧ ∀ a', ((l.set n a').map f).sum = rest + f a' := by
  induction l generalizing n with
  | nil => cases h
  | cons x xs ih =>
    cases n with
    | zero =>
      cases h
      exact ⟨(xs.map f).sum, add_comm _ _, fun a' => add_comm _ _⟩
    | succ n =>
      obtain ⟨rest, hsum, hset⟩ := ih h
      refine ⟨f x + rest, ?_, fun a' => ?_⟩
      · rw [List.map_cons, List.sum_cons, hsum, add_assoc]
      · rw [List.set_cons_succ, List.map_cons, List.sum_cons, hset, add_assoc]

theorem sum_map_set {α M : Type} [AddCommMonoid M] (f : α → M) {l : List α} {n : Nat} {a : α}
    (h : l[n]? = some a) (a' : α) :
    ((l.set n a').map f).sum + f a = (l.map f).sum + f a' := by
  obtain ⟨rest, hsum, hset⟩ := exists_sum_rest f h
  rw [hsum, hset, add_right_comm]

section Sums

variable {M : Type} [AddCommMonoid M] {d : Desk β}

theorem overWorkers_mono [PartialOrder M] [IsOrderedAddMonoid M] {f g : Position → M}
    (h : ∀ p, f p ≤ g p) : overWorkers f d ≤ overWorkers g d :=
  List.sum_le_sum fun p _ => h p

theorem overWorkers_add (f g : Position → M) :
    overWorkers (fun p => f p + g p) d = overWorkers f d + overWorkers g d :=
  List.sum_map_add

theorem overWorkers_eq_zero {f : Position → M} (h : ∀ p ∈ d.workers, f p = 0) :
    overWorkers f d = 0 := by
  refine List.sum_eq_zero fun x hx => ?_
  obtain ⟨p, hp, rfl⟩ := List.mem_map.1 hx
  exact h p hp

theorem overWorkers_map {α γ : Type} (f : Position → Multiset α) (g : α → γ) :
    overWorkers (fun p => (f p).map g) d = (overWorkers f d).map g := by
  unfold overWorkers
  induction d.workers with
  | nil => rfl
  | cons p ps ih =>
    rw [List.map_cons, List.sum_cons, ih, List.map_cons, List.sum_cons, Multiset.map_add]

/-- What two workers count for is counted twice. -/
theorem add_le_overWorkers {α : Type} {f : Position → Multiset α} {n m : Nat} {p q : Position}
    (hn : d.workers[n]? = some p) (hm : d.workers[m]? = some q) (hne : m ≠ n)
    (hf : f .stopped = 0) : f p + f q ≤ overWorkers f d := by
  have hset := sum_map_set f hn .stopped
  rw [hf, add_zero] at hset
  have hq : f q ∈ (d.workers.set n .stopped).map f := by
    rw [← List.getElem?_set_ne (Ne.symm hne)] at hm
    exact List.mem_map_of_mem (List.mem_of_getElem? hm)
  rw [overWorkers, ← hset, add_comm]
  exact add_le_add_left (List.single_le_sum (fun _ _ => Multiset.zero_le _) _ hq) _

end Sums

end Desk

end DealDesk
