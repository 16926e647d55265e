import DealDesk.Proofs.Desk.Placing
import DealDesk.Proofs.Desk.Standoff

/-!
# Orders on their way to a desk

* `Desk.owed` — the orders that the callers have still to submit, each with its callback.
* `Moves.owed_add` — at a desk that takes orders, what a caller no longer owes is accepted.
* `Trace.Mailing` — accepted items that do nothing but hand their settlement to a mailbox.
* `Interlock.worker_idles` — with such items no step of a worker has to do with the desk's lifecycle.
* `Interlock.recast` — while a desk is running, callers that are done make way for others.
-/

namespace DealDesk

/-! ## What is still to be submitted -/

theorem Program.finished_iff {p : Program} :
    p.finished = true ↔ p.pending = none ∧ p.calls = [] := by
  rw [finished, Bool.and_eq_true, Option.isNone_iff_eq_none, List.isEmpty_iff]

theorem Program.ahead_of_finished {p : Program} (h : p.finished = true) : p.ahead = [] := by
  obtain ⟨hpending, hcalls⟩ := finished_iff.1 h
  rw [ahead, hpending, hcalls]
  rfl

namespace Trace

/-- Every accepted item hands its settlement to a mailbox, and that is all. -/
def Mailing (tr : Trace) : Prop :=
  ∀ i ∈ tr.accepted, ∃ box, i.callback = some [.deliver box]

end Trace

namespace Desk

variable {β : Type} {b : Broker β} {n : Nat} {t : Thread} {d d' : Desk β} {q q' : Program}
  {events : List Event} {tr : Trace} {h : History}

/-- The orders that the callers have still to submit. -/
def owed (d : Desk β) : Multiset Placement :=
  (d.callers.map fun q => (↑q.ahead : Multiset Placement)).sum

theorem ahead_of_owed (h : d.owed = 0) (hq : q ∈ d.callers) : q.ahead = [] := by
  have hle : (↑q.ahead : Multiset Placement) ≤ d.owed :=
    List.single_le_sum (fun _ _ => Multiset.zero_le _) _ (List.mem_map_of_mem hq)
  rw [h, Multiset.le_zero] at hle
  exact (Multiset.coe_eq_zero _).1 hle

theorem owed_of_ahead (h : ∀ q ∈ d.callers, q.ahead = []) : d.owed = 0 := by
  refine List.sum_eq_zero fun x hx => ?_
  obtain ⟨q, hq, rfl⟩ := List.mem_map.1 hx
  exact (Multiset.coe_eq_zero _).2 (h q hq)

/-- A program at a desk that takes orders has the first order that is ahead accepted. -/
theorem Performs.ahead_eq (h : Performs t d q d' q' events)
    (ho : q.ahead = [] ∨ d.accepting = true ∧ d.backlog.closed = false) :
    q.ahead = (events.filterMap Event.accepted?).map Item.placement ++ q'.ahead := by
  cases h with
  | refuse order callback calls h =>
    rcases ho with ho | ⟨ho, -⟩
    · cases ho
    · rw [h] at ho
      cases ho
  | refuseLate item calls h =>
    rcases ho with ho | ⟨-, ho⟩
    · cases ho
    · rw [h] at ho
      cases ho
  | _ => rfl

/-- **What a caller no longer owes is accepted.** -/
theorem Moves.owed_add (hm : Moves b (.caller n) d d' events)
    (ho : d.owed = 0 ∨ d.accepting = true ∧ d.backlog.closed = false) :
    d.owed = ↑((events.filterMap Event.accepted?).map Item.placement) + d'.owed := by
  cases hm with
  | @caller n d d' q q' events hat h =>
    have hahead := h.ahead_eq (ho.imp_left fun ho => ahead_of_owed ho (List.mem_of_getElem? hat))
    have hset := sum_map_set (fun q : Program => (↑q.ahead : Multiset Placement)) hat q'
    rw [hahead, ← Multiset.coe_add, ← add_assoc] at hset
    rw [owed, owed, h.frame.callers, ← add_right_cancel hset, add_comm]

/-! ## Items that go to a mailbox -/

/-- A program that delivers next has nothing to do with calls to the desk. -/
theorem Performs.idles (h : Performs t d q d' q' events) (hq : q.pending = none)
    (hnext : ∀ call, q.next? = some call → ∃ box, call = .deliver box) :
    d' = d ∧ q'.pending = none ∧ events = [] := by
  obtain ⟨pending, calls⟩ := q
  cases hq
  cases calls with
  | nil => cases h
  | cons call calls =>
    obtain ⟨box, rfl⟩ := hnext call rfl
    cases h
    exact ⟨rfl, rfl, rfl⟩

/-- **A worker at a desk whose items go to mailboxes keeps out of the desk's lifecycle.** -/
theorem Interlock.worker_idles (hd : Interlock h d tr) (hmail : tr.Mailing)
    (hp : d.pending? (.worker n) = none) (hm : Moves b (.worker n) d d' events) :
    d'.pending? (.worker n) = none ∧ History.Quiet (d.begun (.worker n)) ∧ Idles d d' events := by
  have hnext : ∀ call, d.next? (.worker n) = some call → ∃ box, call = .deliver box := by
    intro call hcall
    obtain ⟨item, hitem, calls, hcalls, hmem⟩ := hd.mem_callback hcall
    obtain ⟨box, hbox⟩ := hmail item hitem
    rw [hcalls] at hbox
    cases hbox
    exact ⟨box, List.mem_singleton.1 hmem⟩
  rcases hm.call_cases hd.tended.asleep with ⟨q, q', d₁, hq, hcall, hq', hperforms, hsame⟩ |
    ⟨-, hquiet, hp', hidle⟩
  · obtain ⟨rfl, hnone, rfl⟩ := hperforms.idles (hq.symm.trans hp) fun call he =>
      hnext call (hcall.trans he)
    refine ⟨hq'.trans hnone, fun e he => ?_, hsame.settings, hsame.lifecycle, hsame.accepting,
      hsame.lock, congrArg Backlog.closed hsame.backlog, hsame.workers, rfl, ?_⟩
    · obtain ⟨call, hcall, rfl⟩ := Option.map_eq_some_iff.1 (Option.mem_toList.1 he)
      obtain ⟨box, rfl⟩ := hnext call hcall
      exact ⟨rfl, rfl⟩
    · rw [hsame.backlog]
  · exact ⟨hp', hquiet, hidle⟩

/-! ## Other callers -/

theorem ne_stopped_of_running (hl : d.lifecycle = .running) : d.lifecycle ≠ .stopped := by
  rw [hl]
  decide

/-- No thread has stopped a desk that is running. -/
theorem Course.unstopped (hc : Course h d) (hl : d.lifecycle = .running) : h.firstStop = none := by
  rw [History.firstStop_eq_none, ← Bool.not_eq_true, ← History.lifecycle_eq_stopped, ← hc.lifecycle]
  exact ne_stopped_of_running hl

/-- **Callers can be replaced while the desk is running**, if none of the new ones is in the middle of a
call. -/
theorem Interlock.recast (hd : Interlock h d tr) (hl : d.lifecycle = .running)
    {callers : List Program} (hnone : ∀ q ∈ callers, q.pending = none) :
    Interlock h { d with callers := callers } tr := by
  have hc := hd.ends.course
  have hpending : ∀ {t pending}, ({ d with callers := callers } : Desk β).pending? t = some pending →
      d.pending? t = some pending := by
    intro t pending hp
    cases t with
    | worker n => exact hp
    | caller n =>
      obtain ⟨q, hq, hp⟩ := Option.bind_eq_some_iff.1 hp
      rw [hnone q (List.mem_of_getElem? hq)] at hp
      cases hp
  have hlock := hc.unlocked (ne_stopped_of_running hl)
  refine ⟨⟨⟨hc.asleep, hc.lifecycle, hc.accepting, hc.workers, ?_, ?_, hc.unlocked, hc.stopped⟩,
    hd.ends.staffed, fun n hn => ?_, hd.ends.retired, fun hw => ?_⟩,
    ⟨hd.tended.asleep, hd.tended.items, hd.tended.sound, hd.tended.onRecord, hd.tended.settles⟩,
    fun t ht => ?_, hd.faithful⟩
  · exact fun u stop hu his => hc.holder u stop (hpending hu) his
  · exact fun u workers hu => hc.joining u workers (hpending hu)
  · rw [hc.unstopped hl] at hn
    cases hn
  · have haccepting := (hd.ends.unopened hw).1.accepting
    rw [hc.accepting.2 hl] at haccepting
    cases haccepting
  · rw [hlock.1] at ht
    cases ht

end Desk

end DealDesk
