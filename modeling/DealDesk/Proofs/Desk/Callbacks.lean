import DealDesk.Proofs.Desk.Custody

/-!
# What callbacks do

* `Call.boxes` — the mailboxes to which a callback hands its settlement before it breaks off.
* `Deliveries` — the callback of an item is invoked as the item is recorded, with its record; the
  deliveries made and those that running callbacks have still to make are those of the records.
* `Call.stops` — does a call, or a callback within it, stop the desk?
* `Harmless` — no callback at a desk does.
-/

namespace DealDesk

/-! ## Deliveries -/

/-- The mailboxes that a program hands its settlement to, up to where it breaks off. -/
def Call.boxes : List Call → List Nat
  | [] => []
  | .fail :: _ => []
  | .deliver box :: calls => box :: boxes calls
  | .submit _ _ :: calls | .start :: calls | .stop :: calls => boxes calls

/-- What the callback of a recorded item delivers. -/
def deliveries (e : Item × Settlement) : List (Nat × Settlement) :=
  (Call.boxes (e.1.callback.getD [])).map fun box => (box, e.2)

/-- What the callback in a worker's hands has still to deliver. -/
def Position.undelivered : Position → Multiset (Nat × Settlement)
  | .notifying _ s p => ↑((Call.boxes p.calls).map fun box => (box, s))
  | _ => 0

namespace Desk

variable {β : Type} {b : Broker β} {n : Nat} {t : Thread} {d d' : Desk β} {p p' : Position}
  {events : List Event} {tr : Trace}

/-- Only delivering and breaking off change what is still to be delivered. -/
theorem Performs.boxes_eq {q q' : Program} (h : Performs t d q d' q' events)
    (hd : ∀ box calls, q ≠ ⟨none, .deliver box :: calls⟩)
    (hf : ∀ calls, q ≠ ⟨none, .fail :: calls⟩) : Call.boxes q'.calls = Call.boxes q.calls := by
  cases h with
  | deliver box calls => exact absurd rfl (hd box calls)
  | fail calls => exact absurd rfl (hf calls)
  | _ => rfl

/-- A callback delivers what it has still to deliver, and takes over what its record demands. -/
theorem Works.undelivered_add (h : Works b d n p d' p' events) :
    (0 + p.undelivered + ↑(p.records.flatMap deliveries) : Multiset (Nat × Settlement)) =
      ↑p.delivers + p'.undelivered + 0 := by
  cases h with
  | record item s h =>
    have hd : deliveries (item, s) = [] := by simp [deliveries, h, Call.boxes]
    simp [Position.delivers, Position.undelivered, Position.records, hd]
  | recordAndNotify item s calls h =>
    have hd : deliveries (item, s) = (Call.boxes calls).map fun box => (box, s) := by
      simp [deliveries, h]
    simp [Position.delivers, Position.undelivered, Position.records, hd, Program.ofCalls]
  | deliver item s box calls =>
    simp [Position.delivers, Position.undelivered, Position.records, Call.boxes]
  | act item s q d' q' events h hd hf =>
    have hnone : (Position.notifying item s q).delivers = [] := by
      have ht := (Works.act (b := b) item s q d' q' events h hd hf).told.delivered
      rw [← ht, h.frame.delivered]
    rw [hnone, Position.undelivered, Position.undelivered, h.boxes_eq hd hf]
    show (0 + _ + 0 : Multiset (Nat × Settlement)) = 0 + _ + 0
    rfl
  | _ => rfl

theorem Moves.undelivered_add (hz : d.Asleep) (h : Moves b t d d' events) :
    (0 + overWorkers Position.undelivered d +
        ↑((events.filterMap Event.recorded?).flatMap deliveries) : Multiset (Nat × Settlement)) =
      ↑(events.filterMap Event.delivered?) + overWorkers Position.undelivered d' + 0 := by
  cases h with
  | @caller n d d' p p' events hat h =>
    have hw : overWorkers Position.undelivered d' = overWorkers Position.undelivered d :=
      h.overWorkers_eq rfl hz
    rw [h.frame.recorded, h.frame.delivered]
    show 0 + _ + (0 : Multiset _) = 0 + overWorkers Position.undelivered d' + 0
    rw [hw]
  | worker hat h =>
    rw [h.told.recorded, h.told.delivered]
    exact balance_over_workers h.undelivered_add (h.overWorkers_add hz hat)

theorem Moves.notified (h : Moves b t d d' events) : events.filterMap Event.notified? =
    (events.filterMap Event.recorded?).filter fun e => e.1.callback.isSome := by
  cases h with
  | caller hat h => rw [h.frame.notified, h.frame.recorded]; rfl
  | worker hat h => rw [h.told.notified, h.told.recorded]

/-- Callbacks are invoked with what is recorded for their items, and deliver it. -/
structure Deliveries (d : Desk β) (tr : Trace) : Prop where
  asleep : d.Asleep
  notified : tr.notified = tr.recorded.filter fun e => e.1.callback.isSome
  delivered : (↑(tr.recorded.flatMap deliveries) : Multiset (Nat × Settlement)) =
    ↑tr.delivered + overWorkers Position.undelivered d

theorem Deliveries.start (settings : Settings) (s : β) (register : Register)
    (programs : List (List Call)) :
    Deliveries ((closed settings s register).withCallers programs) [] where
  asleep _ := rfl
  notified := rfl
  delivered := rfl

theorem Deliveries.step (hv : Deliveries d tr) (h : Moves b t d d' events) :
    Deliveries d' (tr ++ Trace.ofStep t events) where
  asleep := h.asleep hv.asleep
  notified := by
    have hn := hv.notified
    rw [Trace.notified, Trace.recorded] at hn ⊢
    rw [Trace.pick_step, Trace.pick_step, List.filter_append, hn, h.notified]
  delivered := by
    have hd := h.undelivered_add hv.asleep
    rw [Trace.recorded, Trace.delivered, Trace.pick_step, Trace.pick_step, List.flatMap_append,
      ← Multiset.coe_add, ← Multiset.coe_add, ← Trace.recorded, ← Trace.delivered, hv.delivered,
      add_assoc, add_assoc]
    rw [zero_add, add_zero] at hd
    rw [hd]

/-- **Deliveries after every run.** -/
theorem follow_deliveries {settings : Settings} {s : β} {register : Register}
    {programs : List (List Call)} {schedule : List Turn} {d₀ : Desk β}
    (hopen : open? settings s register = .ok d₀)
    (hrun : (d₀.withCallers programs).follow b schedule = some (d, tr)) : Deliveries d tr := by
  obtain ⟨rfl, -⟩ := open?_eq hopen
  exact follow_invariant (P := Deliveries) (fun _ h => ⟨h.asleep, h.notified, h.delivered⟩)
    Deliveries.step (Deliveries.start settings s register programs) hrun

end Desk

/-! ## Callbacks that stop nothing -/

mutual

/-- Does the call stop a desk, or a callback within it? -/
def Call.stops : Call → Bool
  | .stop => true
  | .submit _ (some calls) => Call.anyStops calls
  | .submit _ none | .deliver _ | .fail | .start => false

def Call.anyStops : List Call → Bool
  | [] => false
  | c :: cs => c.stops || Call.anyStops cs

end

/-- The callback of an order that is submitted. -/
def Call.callback? : Call → Option (List Call)
  | .submit _ callback => callback
  | .deliver _ | .fail | .start | .stop => none

/-- Does the call itself stop a desk? -/
def Call.isStop : Call → Bool
  | .stop => true
  | .deliver _ | .fail | .submit _ _ | .start => false

theorem Call.anyStops_eq_false {calls : List Call} (h : Call.anyStops calls = false) :
    calls.any Call.isStop = false ∧
      ∀ c ∈ calls.filterMap Call.callback?, Call.anyStops c = false := by
  induction calls with
  | nil => exact ⟨rfl, nofun⟩
  | cons c cs ih =>
    rw [Call.anyStops, Bool.or_eq_false_iff] at h
    obtain ⟨hany, hcb⟩ := ih h.2
    have hc := h.1
    cases c with
    | submit order callback =>
      cases callback with
      | none => exact ⟨hany, hcb⟩
      | some calls =>
        refine ⟨hany, fun c hm => ?_⟩
        rcases List.mem_cons.1 hm with rfl | hm
        · exact hc
        · exact hcb c hm
    | stop => cases hc
    | _ => exact ⟨hany, hcb⟩

namespace Pending

def callback? : Pending → Option (List Call)
  | .draw _ callback => callback
  | .enqueue item => item.callback
  | .close _ | .join _ => none

/-- Is the call a stop that is under way? -/
def isStop : Pending → Bool
  | .close _ | .join _ => true
  | .draw _ _ | .enqueue _ => false

end Pending

namespace Program

/-- The callbacks of the orders that it submits. -/
def callbacks (p : Program) : List (List Call) :=
  (p.pending.bind Pending.callback?).toList ++ p.calls.filterMap Call.callback?

/-- Is a stop under way or ahead? -/
def stops (p : Program) : Bool := p.pending.any Pending.isStop || p.calls.any Call.isStop

end Program

namespace Position

/-- The callbacks that come from a worker: that of the item in hand, and those of the orders that a
running callback submits. -/
def callbacks : Position → List (List Call)
  | .validating item | .quoting item | .calling item _ | .awaiting item _ | .recording item _ =>
    item.callback.toList
  | .notifying _ _ p => p.callbacks
  | .starting | .dequeuing | .stopped => []

/-- Is a running callback about to stop the desk? -/
def stops : Position → Bool
  | .notifying _ _ p => p.stops
  | _ => false

end Position

namespace Desk

variable {β : Type} {b : Broker β} {n : Nat} {t : Thread} {d d' : Desk β} {p p' : Position}
  {events : List Event} {tr : Trace}

theorem Performs.callbacks_subset {q q' : Program} (h : Performs t d q d' q' events) :
    q'.callbacks ⊆ q.callbacks := by
  cases h with
  | receive order callback calls h =>
    cases callback <;> exact List.Subset.refl _
  | refuse order callback calls h =>
    cases callback with
    | none => exact List.Subset.refl _
    | some c => exact List.subset_cons_self _ _
  | enqueue item calls h => exact List.subset_append_right _ _
  | refuseLate item calls h => exact List.subset_append_right _ _
  | _ => exact List.Subset.refl _

/-- The callback of an accepted item comes from the program that submitted it. -/
theorem Performs.mem_callbacks {q q' : Program} (h : Performs t d q d' q' events) :
    ∀ i ∈ events.filterMap Event.accepted?, ∀ c ∈ i.callback, c ∈ q.callbacks := by
  intro i hi c hc
  cases h with
  | enqueue item calls h =>
    rw [List.mem_singleton.1 hi] at hc
    exact List.mem_append_left _ (Option.mem_toList.2 hc)
  | _ => cases hi

theorem Performs.stops_eq_false {q q' : Program} (h : Performs t d q d' q' events)
    (hq : q.stops = false) : q'.stops = false := by
  cases h with
  | stopRunning calls h hl => cases hq
  | stopQuiet calls h hl => cases hq
  | closeQuiet calls => cases hq
  | close workers calls => cases hq
  | leave calls => cases hq
  | skip n rest calls h => cases hq
  | join n rest calls h => cases hq
  | _ => exact hq

/-- No callback at a desk stops it. -/
structure Harmless (d : Desk β) : Prop where
  asleep : d.Asleep
  callers : ∀ q ∈ d.callers, ∀ c ∈ q.callbacks, Call.anyStops c = false
  waiting : ∀ i ∈ d.backlog.items, ∀ c ∈ i.callback, Call.anyStops c = false
  workers : ∀ p ∈ d.workers, p.stops = false ∧ ∀ c ∈ p.callbacks, Call.anyStops c = false

namespace Harmless

theorem start (settings : Settings) (s : β) (register : Register) {programs : List (List Call)}
    (h : ∀ calls ∈ programs, ∀ c ∈ calls.filterMap Call.callback?, Call.anyStops c = false) :
    Harmless ((closed settings s register).withCallers programs) where
  asleep _ := rfl
  callers q hq := by
    obtain ⟨calls, hcalls, rfl⟩ := List.mem_map.1 hq
    exact h calls hcalls
  waiting _ h := by cases h
  workers _ h := by cases h

/-- What a worker has in hand stays harmless, and so does what its callback makes of it. -/
theorem works (hh : Harmless d) (hat : d.workers[n]? = some p) (h : Works b d n p d' p' events) :
    p'.stops = false ∧ ∀ c ∈ p'.callbacks, Call.anyStops c = false := by
  obtain ⟨hs, hc⟩ := hh.workers p (List.mem_of_getElem? hat)
  cases h with
  | take item rest h =>
    refine ⟨rfl, fun c hm => hh.waiting item ?_ c (Option.mem_toList.1 hm)⟩
    rw [h]
    exact List.mem_cons_self
  | recordAndNotify item s calls h =>
    have hcalls : Call.anyStops calls = false := by
      refine hc calls ?_
      show calls ∈ item.callback.toList
      rw [h]
      exact List.mem_singleton.2 rfl
    exact Call.anyStops_eq_false hcalls
  | deliver item s box calls => exact ⟨hs, hc⟩
  | act item s q d' q' events h hd hf =>
    exact ⟨h.stops_eq_false hs, fun c hm => hc c (h.callbacks_subset hm)⟩
  | record item s h => exact ⟨rfl, nofun⟩
  | finish item s => exact ⟨rfl, nofun⟩
  | breakOff item s calls => exact ⟨rfl, nofun⟩
  | rise => exact ⟨rfl, nofun⟩
  | retire h hc => exact ⟨rfl, nofun⟩
  | _ => exact ⟨rfl, hc⟩

/-- What waits after a worker's step waited before, or its callback submitted it. -/
theorem works_items (hh : Harmless d) (hat : d.workers[n]? = some p)
    (h : Works b d n p d' p' events) :
    ∀ i ∈ d'.backlog.items, ∀ c ∈ i.callback, Call.anyStops c = false := by
  intro i hi c hc
  cases h with
  | take item rest h =>
    refine hh.waiting i ?_ c hc
    rw [h]
    exact List.mem_cons_of_mem _ hi
  | act item s q d' q' events h hd hf =>
    rw [h.frame.items] at hi
    rcases List.mem_append.1 hi with hi | hi
    · exact hh.waiting i hi c hc
    · exact (hh.workers _ (List.mem_of_getElem? hat)).2 c (h.mem_callbacks i hi c hc)
  | _ => exact hh.waiting i hi c hc

theorem step (hh : Harmless d) (h : Moves b t d d' events) : Harmless d' := by
  have hz := h.asleep hh.asleep
  cases h with
  | @caller n d d' q q' events hat h =>
    have hq := hh.callers q (List.mem_of_getElem? hat)
    refine ⟨hz, fun r hr => ?_, fun i hi c hc => ?_, ?_⟩
    · obtain ⟨j, hj⟩ := List.mem_iff_getElem?.1 hr
      rcases h.caller_cases hj with ⟨-, rfl⟩ | ⟨-, hj⟩
      · exact fun c hc => hq c (h.callbacks_subset hc)
      · exact hh.callers r (List.mem_of_getElem? hj)
    · have hi : i ∈ d'.backlog.items := hi
      rw [h.frame.items] at hi
      rcases List.mem_append.1 hi with hi | hi
      · exact hh.waiting i hi c hc
      · exact hq c (h.mem_callbacks i hi c hc)
    · have hw := h.forall_workers (P := fun p => p.stops = false ∧
        ∀ c ∈ p.callbacks, Call.anyStops c = false) ⟨rfl, nofun⟩ hh.workers
      exact hw
  | @worker n d d' p p' events hat h =>
    have hi := hh.works_items hat h
    refine ⟨hz, ?_, hi, ?_⟩
    · show ∀ q ∈ d'.callers, _
      rw [h.callers_eq]
      exact hh.callers
    · exact h.forall_workers hh.asleep hat hh.workers (hh.works hat h)

end Harmless

end Desk

end DealDesk
