import DealDesk.Proofs.Counter
import DealDesk.Proofs.Desk.Custody

/-!
# One caller that places orders

* `Program.ahead` — the orders that a program has still to place, that under way included.
* `Program.drawn` — the sequence number drawn for the order under way.
* `Placing` — if one caller alone places orders, they are accepted in its order and numbered without
  a gap. A number that is drawn in vain is the last one, as the backlog has closed.

`Placing.step` keeps it, and `Placing.sublist` draws the consequence.
-/

namespace DealDesk

/-! ## What is placed -/

/-- An order with what to do once it is settled. -/
abbrev Placement := Order × Option (List Call)

def Item.placement (i : Item) : Placement := (i.order, i.callback)

def Call.placement? : Call → Option Placement
  | .submit order callback => some (order, callback)
  | .deliver _ | .fail | .start | .stop => none

def Pending.placement? : Pending → Option Placement
  | .draw order callback => some (order, callback)
  | .enqueue item => some item.placement
  | .close _ | .join _ => none

/-- The orders that some calls place. -/
def Call.placements (calls : List Call) : List Placement := calls.filterMap Call.placement?

namespace Program

/-- What is still to be accepted or refused. -/
def ahead (p : Program) : List Placement :=
  (p.pending.bind Pending.placement?).toList ++ Call.placements p.calls

/-- The number that is drawn for the item about to be enqueued. -/
def drawn (p : Program) : List UInt64 :=
  match p.pending with
  | some (.enqueue item) => [item.sequence]
  | _ => []

end Program

/-- What the callback in a worker's hands has still to place. -/
def Position.ahead : Position → List Placement
  | .notifying _ _ p => p.ahead
  | _ => []

namespace Desk

variable {β : Type} {b : Broker β} {n k : Nat} {t : Thread} {d d' : Desk β} {q q' : Program}
  {p p' : Position} {events : List Event} {tr : Trace} {placed : List Placement}

/-! ## Steps of a program -/

/-- What is accepted was ahead, and so is what stays ahead. -/
theorem Performs.ahead_sublist (h : Performs t d q d' q' events) :
    ((events.filterMap Event.accepted?).map Item.placement ++ q'.ahead).Sublist q.ahead := by
  cases h with
  | refuse order callback calls h => exact List.sublist_cons_self _ _
  | refuseLate item calls h => exact List.sublist_cons_self _ _
  | _ => exact List.Sublist.refl _

/-- As long as the backlog is open, a number is drawn or goes with its item. -/
theorem Performs.numbers (h : Performs t d q d' q' events) (hopen : d'.backlog.closed = false) :
    ((events.filterMap Event.accepted?).map (·.sequence) ++ q'.drawn = q.drawn ∧
      d'.register.nextSequence = d.register.nextSequence) ∨
    (events.filterMap Event.accepted? = [] ∧ q.drawn = [] ∧
      q'.drawn = [d.register.nextSequence] ∧
      d'.register.nextSequence = d.register.nextSequence + 1) := by
  cases h with
  | draw order callback calls => exact .inr ⟨rfl, rfl, rfl, rfl⟩
  | refuseLate item calls h => rw [h] at hopen; cases hopen
  | _ => exact .inl ⟨rfl, rfl⟩

theorem Performs.closed (h : Performs t d q d' q' events) (hc : d.backlog.closed = true) :
    d'.backlog.closed = true := by
  cases h with
  | enqueue item calls h => exact hc
  | closeQuiet calls => rfl
  | close workers calls => rfl
  | _ => exact hc

/-- A program that places nothing draws no number and has nothing accepted. -/
theorem Performs.idle (h : Performs t d q d' q' events) (hq : q.ahead = []) :
    q'.ahead = [] ∧ events.filterMap Event.accepted? = [] ∧
      d'.register.nextSequence = d.register.nextSequence := by
  have hs := h.ahead_sublist
  rw [hq, List.sublist_nil, List.append_eq_nil_iff, List.map_eq_nil_iff] at hs
  refine ⟨hs.2, hs.1, ?_⟩
  cases h with
  | draw order callback calls => cases hq
  | _ => rfl

/-! ## Steps of a worker -/

/-- Nor does a worker, if the callback that it comes to run places nothing. -/
theorem Works.idle (h : Works b d n p d' p' events) (hp : p.ahead = [])
    (hcb : ∀ i ∈ p.unrecorded, ∀ calls ∈ i.callback, Call.placements calls = []) :
    p'.ahead = [] ∧ events.filterMap Event.accepted? = [] ∧
      d'.register.nextSequence = d.register.nextSequence := by
  have record := fun s => Register.record_nextSequence d.register s
  cases h with
  | call item attempt number hnumber => exact ⟨rfl, filterMap_call rfl .., rfl⟩
  | again item attempt outcome failure h hn =>
    rw [filterMap_answer fun _ => rfl]
    exact ⟨rfl, rfl, rfl⟩
  | settle item attempt outcome s h hn =>
    exact ⟨rfl, filterMap_settled (fun _ => rfl) (fun _ => rfl) (fun _ => rfl) .., rfl⟩
  | record item s h => exact ⟨rfl, rfl, record s⟩
  | recordAndNotify item s calls h =>
    exact ⟨hcb item (Multiset.mem_singleton_self item) calls h, rfl, record s⟩
  | deliver item s box calls => exact ⟨hp, rfl, rfl⟩
  | act item s q d' q' events h hd hf => exact h.idle hp
  | _ => exact ⟨rfl, rfl, rfl⟩

theorem Works.closed (h : Works b d n p d' p' events) (hc : d.backlog.closed = true) :
    d'.backlog.closed = true := by
  cases h with
  | act item s q d' q' events h hd hf => exact h.closed hc
  | _ => exact hc

/-! ## The invariant -/

/-- The numbers of what is accepted, and the one drawn by program `q`. -/
def numbers (tr : Trace) (q : Program) : List UInt64 := tr.accepted.map (·.sequence) ++ q.drawn

/-- Caller `k`, with program `q`, places orders out of `placed`. -/
structure Places (k : Nat) (placed : List Placement) (d : Desk β) (tr : Trace) (q : Program) :
    Prop where
  caller : d.callers[k]? = some q
  ahead : (tr.accepted.map Item.placement ++ q.ahead).Sublist placed
  numbered : d.backlog.closed = false → numbers tr q = counted 0 (numbers tr q).length ∧
    d.register.nextSequence = UInt64.ofNat (numbers tr q).length

/-- Caller `k` alone places orders; they are accepted in order and numbered without a gap. -/
structure Placing (k : Nat) (placed : List Placement) (d : Desk β) (tr : Trace) : Prop where
  asleep : d.Asleep
  places : ∃ q, Places k placed d tr q
  others : ∀ j q, d.callers[j]? = some q → j ≠ k → q.ahead = []
  workers : ∀ p ∈ d.workers, p.ahead = []
  sequences : tr.accepted.map (·.sequence) = counted 0 tr.accepted.length

namespace Places

/-- The caller's own step. -/
theorem step (hp : Places k placed d tr q) (h : Performs t d q d' q' events) :
    Places k placed { d' with callers := d'.callers.set k q' } (tr ++ Trace.ofStep t events) q'
    where
  caller := by
    have hk := hp.caller
    rw [← h.frame.callers] at hk
    exact List.getElem?_set_self (List.getElem?_eq_some_iff.1 hk).1
  ahead := by
    rw [Trace.accepted_step, List.map_append, List.append_assoc]
    exact (h.ahead_sublist.append_left _).trans hp.ahead
  numbered hopen := by
    have hwas : d.backlog.closed = false := by
      cases hc : d.backlog.closed with
      | false => rfl
      | true => rw [← h.closed hc]; exact hopen
    obtain ⟨hdrawn, hnext⟩ := hp.numbered hwas
    rcases h.numbers hopen with ⟨hsame, hnext'⟩ | ⟨hnone, hnil, hone, hnext'⟩
    · have he : numbers (tr ++ Trace.ofStep t events) q' = numbers tr q := by
        rw [numbers, Trace.accepted_step, List.map_append, List.append_assoc, hsame, numbers]
      rw [he]
      exact ⟨hdrawn, hnext'.trans hnext⟩
    · have he : numbers (tr ++ Trace.ofStep t events) q' =
          numbers tr q ++ [d.register.nextSequence] := by
        rw [numbers, Trace.accepted_step, hnone, List.append_nil, hone, numbers, hnil,
          List.append_nil]
      rw [he, List.length_append, List.length_singleton]
      refine ⟨?_, ?_⟩
      · rw [counted_concat, ← hdrawn, zero_add, hnext]
      · rw [UInt64.ofNat_add, ← hnext]
        exact hnext'

/-- A step that places nothing. -/
theorem idle (hp : Places k placed d tr q) (hcaller : d'.callers[k]? = d.callers[k]?)
    (hnone : events.filterMap Event.accepted? = [])
    (hnext : d'.register.nextSequence = d.register.nextSequence)
    (hclosed : d.backlog.closed = true → d'.backlog.closed = true) :
    Places k placed d' (tr ++ Trace.ofStep t events) q where
  caller := hcaller.trans hp.caller
  ahead := by
    rw [Trace.accepted_step, hnone, List.append_nil]
    exact hp.ahead
  numbered hopen := by
    have hwas : d.backlog.closed = false := by
      cases hc : d.backlog.closed with
      | false => rfl
      | true => rw [hclosed hc] at hopen; cases hopen
    rw [numbers, Trace.accepted_step, hnone, List.append_nil, hnext]
    exact hp.numbered hwas

/-- What is accepted next has the next number. -/
theorem sequences (hp : Places k placed d tr q) (h : Performs t d q d' q' events)
    (hs : tr.accepted.map (·.sequence) = counted 0 tr.accepted.length) :
    (tr ++ Trace.ofStep t events).accepted.map (·.sequence) =
      counted 0 (tr ++ Trace.ofStep t events).accepted.length := by
  have quiet : events.filterMap Event.accepted? = [] →
      (tr ++ Trace.ofStep t events).accepted.map (·.sequence) =
        counted 0 (tr ++ Trace.ofStep t events).accepted.length := by
    intro hnone
    rw [Trace.accepted_step, hnone, List.append_nil]
    exact hs
  cases h with
  | enqueue item calls h =>
    obtain ⟨hdrawn, -⟩ := hp.numbered h
    have hlen : (numbers tr ⟨some (.enqueue item), calls⟩).length = tr.accepted.length + 1 := by
      rw [numbers, List.length_append, List.length_map]
      rfl
    rw [hlen] at hdrawn
    rw [Trace.accepted_step, List.map_append, List.length_append]
    exact hdrawn
  | _ => exact quiet rfl

end Places

namespace Placing

theorem start (settings : Settings) (s : β) {programs : List (List Call)} {calls : List Call}
    (hk : programs[k]? = some calls)
    (hothers : ∀ j calls, programs[j]? = some calls → j ≠ k → Call.placements calls = []) :
    Placing k (Call.placements calls)
      ((closed settings s Register.empty).withCallers programs) [] where
  asleep _ := rfl
  places := by
    refine ⟨Program.ofCalls calls, ?_, List.Sublist.refl _, fun _ => ⟨rfl, rfl⟩⟩
    show (programs.map Program.ofCalls)[k]? = _
    rw [List.getElem?_map, hk]
    rfl
  others j q hq hj := by
    have hq : (programs.map Program.ofCalls)[j]? = some q := hq
    rw [List.getElem?_map, Option.map_eq_some_iff] at hq
    obtain ⟨calls', hcalls, rfl⟩ := hq
    exact hothers j calls' hcalls hj
  workers _ h := by cases h
  sequences := rfl

theorem clock (now : Int64) (hp : Placing k placed d tr) :
    Placing k placed { d with now := now } tr where
  asleep := hp.asleep
  places := by
    obtain ⟨q, hq⟩ := hp.places
    exact ⟨q, hq.caller, hq.ahead, hq.numbered⟩
  others := hp.others
  workers := hp.workers
  sequences := hp.sequences

/-- **Orders are accepted in the order in which they are placed.** -/
theorem sublist (hp : Placing k placed d tr) : (tr.accepted.map Item.placement).Sublist placed := by
  obtain ⟨q, hq⟩ := hp.places
  exact (List.sublist_append_left _ _).trans hq.ahead

/-- What is accepted was placed. -/
theorem mem_placed (hp : Placing k placed d tr) {i : Item} (hi : i ∈ tr.accepted) :
    i.placement ∈ placed :=
  hp.sublist.subset (List.mem_map_of_mem hi)

/-- A step of the other callers and of the workers. -/
theorem idle (hp : Placing k placed d tr) (hz : d'.Asleep)
    (hcaller : d'.callers[k]? = d.callers[k]?)
    (hothers : ∀ j q, d'.callers[j]? = some q → j ≠ k → q.ahead = [])
    (hworkers : ∀ p ∈ d'.workers, p.ahead = [])
    (hnone : events.filterMap Event.accepted? = [])
    (hnext : d'.register.nextSequence = d.register.nextSequence)
    (hclosed : d.backlog.closed = true → d'.backlog.closed = true) :
    Placing k placed d' (tr ++ Trace.ofStep t events) where
  asleep := hz
  places := by
    obtain ⟨q, hq⟩ := hp.places
    exact ⟨q, hq.idle hcaller hnone hnext hclosed⟩
  others := hothers
  workers := hworkers
  sequences := by
    rw [Trace.accepted_step, hnone, List.append_nil]
    exact hp.sequences

theorem step (hcb : ∀ o ∈ placed, ∀ calls ∈ o.2, Call.placements calls = []) (hc : Custody d tr)
    (hp : Placing k placed d tr) (h : Moves b t d d' events) :
    Placing k placed d' (tr ++ Trace.ofStep t events) := by
  have hz := h.asleep hp.asleep
  cases h with
  | @caller n d d' q q' events hat h =>
    have hworkers : ∀ p ∈ d'.workers, p.ahead = [] :=
      h.forall_workers (P := fun p => p.ahead = []) rfl hp.workers
    by_cases hn : n = k
    · subst hn
      obtain ⟨r, hr⟩ := hp.places
      cases hat.symm.trans hr.caller
      refine ⟨hz, ⟨q', hr.step h⟩, fun j r hj hne => ?_, hworkers, hr.sequences h hp.sequences⟩
      rcases h.caller_cases hj with ⟨he, -⟩ | ⟨-, hj⟩
      · exact absurd he hne
      · exact hp.others j r hj hne
    · obtain ⟨hahead, hnone, hnext⟩ := h.idle (hp.others n q hat hn)
      refine hp.idle hz ?_ (fun j r hj hne => ?_) hworkers hnone hnext h.closed
      · show (d'.callers.set n q')[k]? = d.callers[k]?
        rw [List.getElem?_set_ne hn, h.frame.callers]
      · rcases h.caller_cases hj with ⟨-, rfl⟩ | ⟨-, hj⟩
        · exact hahead
        · exact hp.others j r hj hne
  | @worker n d d' p p' events hat h =>
    have hp₀ := List.mem_of_getElem? hat
    obtain ⟨hahead, hnone, hnext⟩ := h.idle (hp.workers p hp₀) fun i hi =>
      hcb i.placement (hp.mem_placed (hc.mem_accepted hp₀ hi))
    have hworkers := h.forall_workers hp.asleep hat hp.workers hahead
    refine hp.idle hz ?_ (fun j r hj hne => ?_) hworkers hnone hnext h.closed
    · show d'.callers[k]? = d.callers[k]?
      rw [h.callers_eq]
    · have hj : d'.callers[j]? = some r := hj
      rw [h.callers_eq] at hj
      exact hp.others j r hj hne

end Placing

end Desk

end DealDesk
