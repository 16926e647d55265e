import DealDesk.Proofs.Desk.Trace

/-!
# What a step changes

* `Frame` — what a step of a program leaves alone: broker, gate, records, and the items that wait,
  but for one that it adds.
* `Asleep` — there is no worker before the start; so a worker's step moves nobody else
  (`Works.workers_eq`).
* `Told` — the events of a worker's step, kind by kind, read off the position that it leaves.
* `balance_over_workers` — a quantity that balances where a step happens balances over the desk.
-/

namespace DealDesk

namespace Desk

variable {β : Type} {b : Broker β}

/-! ## Programs leave most of a desk alone -/

structure Frame (d d' : Desk β) (events : List Event) : Prop where
  settings : d'.settings = d.settings
  broker : d'.broker = d.broker
  gate : d'.gate = d.gate
  callers : d'.callers = d.callers
  register : d'.register = { d.register with nextSequence := d'.register.nextSequence }
  items : d'.backlog.items = d.backlog.items ++ events.filterMap Event.accepted?
  workers : d'.workers = d.workers ∨
    d.lifecycle = .idle ∧ d'.workers = List.replicate d.settings.workers.toNat .starting
  recorded : events.filterMap Event.recorded? = []
  notified : events.filterMap Event.notified? = []
  delivered : events.filterMap Event.delivered? = []
  asked : events.filterMap Event.asked? = []
  brokered : events.filterMap Event.brokered? = []
  filled : events.filterMap Event.filled? = []

theorem Performs.frame {t : Thread} {d d' : Desk β} {p p' : Program} {events : List Event}
    (h : Performs t d p d' p' events) : Frame d d' events := by
  cases h with
  | enqueue item calls h =>
    exact ⟨rfl, rfl, rfl, rfl, rfl, rfl, .inl rfl, rfl, rfl, rfl, rfl, rfl, rfl⟩
  | start calls h hl =>
    exact ⟨rfl, rfl, rfl, rfl, rfl, (List.append_nil _).symm, .inr ⟨hl, rfl⟩,
      rfl, rfl, rfl, rfl, rfl, rfl⟩
  | _ =>
    exact ⟨rfl, rfl, rfl, rfl, rfl, (List.append_nil _).symm, .inl rfl,
      rfl, rfl, rfl, rfl, rfl, rfl⟩

/-- After a caller's step each other caller is where it was. -/
theorem Performs.caller_cases {t : Thread} {n j : Nat} {d d' : Desk β} {q q' r : Program}
    {events : List Event} (h : Performs t d q d' q' events)
    (hr : (d'.callers.set n q')[j]? = some r) :
    (j = n ∧ r = q') ∨ (j ≠ n ∧ d.callers[j]? = some r) := by
  rw [h.frame.callers] at hr
  by_cases hj : j = n
  · subst hj
    have hlt := (List.getElem?_eq_some_iff.1 hr).1
    rw [List.length_set] at hlt
    rw [List.getElem?_set_self hlt] at hr
    cases hr
    exact .inl ⟨rfl, rfl⟩
  · rw [List.getElem?_set_ne (Ne.symm hj)] at hr
    exact .inr ⟨hj, hr⟩

/-- There is no worker before the start. -/
def Asleep (d : Desk β) : Prop := d.lifecycle = .idle → d.workers = []

/-- A worker's step moves nobody but that worker. -/
theorem Works.workers_eq {n : Nat} {d d' : Desk β} {p p' : Position} {events : List Event}
    (hz : d.Asleep) (hat : d.workers[n]? = some p) (h : Works b d n p d' p' events) :
    d'.workers = d.workers := by
  cases h with
  | act item s q d' q' events h hd hf =>
    rcases h.frame.workers with hw | ⟨hl, -⟩
    · exact hw
    · rw [hz hl] at hat; cases hat
  | _ => rfl

theorem Works.callers_eq {n : Nat} {d d' : Desk β} {p p' : Position} {events : List Event}
    (h : Works b d n p d' p' events) : d'.callers = d.callers := by
  cases h with
  | act item s q d' q' events h hd hf => exact h.frame.callers
  | _ => rfl

theorem Works.settings_eq {n : Nat} {d d' : Desk β} {p p' : Position} {events : List Event}
    (h : Works b d n p d' p' events) : d'.settings = d.settings := by
  cases h with
  | act item s q d' q' events h hd hf => exact h.frame.settings
  | _ => rfl

theorem Moves.settings_eq {t : Thread} {d d' : Desk β} {events : List Event}
    (h : Moves b t d d' events) : d'.settings = d.settings := by
  cases h with
  | caller hat h => exact h.frame.settings
  | worker hat h => exact h.settings_eq

theorem Moves.asleep {t : Thread} {d d' : Desk β} {events : List Event} (hz : d.Asleep)
    (h : Moves b t d d' events) : d'.Asleep := by
  have idle_of_performs : ∀ {t p d' p' events}, Performs t d p d' p' events →
      d'.lifecycle = .idle → d.lifecycle = .idle ∧ d'.workers = d.workers := by
    intro t p d' p' events h hl
    cases h <;> first | exact ⟨hl, rfl⟩ | cases hl
  cases h with
  | caller hat h =>
    intro hl
    obtain ⟨hl, hw⟩ := idle_of_performs h hl
    exact hw.trans (hz hl)
  | worker hat h =>
    intro hl
    have hw := Works.workers_eq hz hat h
    have hl : d.lifecycle = .idle := by
      cases h with
      | act item s q d' q' events h hd hf => exact (idle_of_performs h hl).1
      | _ => exact hl
    rw [hz hl] at hat
    cases hat

section OverWorkers

variable {M : Type} [AddCommMonoid M] {f : Position → M} {d d' : Desk β} {events : List Event}

/-- A caller changes nothing that counts no fresh worker. -/
theorem Performs.overWorkers_eq {t : Thread} {p p' : Program} (hf : f .starting = 0)
    (hz : d.Asleep) (h : Performs t d p d' p' events) : overWorkers f d' = overWorkers f d := by
  rcases h.frame.workers with hw | ⟨hl, hw⟩
  · rw [overWorkers, hw]; rfl
  · rw [overWorkers, overWorkers, hw, hz hl, List.map_replicate, hf]
    simp only [List.sum_replicate, nsmul_zero, List.map_nil, List.sum_nil]

/-- A worker's step exchanges what it counted for. -/
theorem Works.overWorkers_add {n : Nat} {p p' : Position} (hz : d.Asleep)
    (hat : d.workers[n]? = some p) (h : Works b d n p d' p' events) :
    overWorkers f { d' with workers := d'.workers.set n p' } + f p = overWorkers f d + f p' := by
  rw [overWorkers, Works.workers_eq hz hat h]
  exact sum_map_set f hat p'

/-- What holds of every worker, a fresh one included, a program's step keeps. -/
theorem Performs.forall_workers {t : Thread} {p p' : Program} {P : Position → Prop}
    (h0 : P .starting) (hall : ∀ q ∈ d.workers, P q) (h : Performs t d p d' p' events) :
    ∀ q ∈ d'.workers, P q := by
  intro q hq
  rcases h.frame.workers with hw | ⟨-, hw⟩
  · rw [hw] at hq
    exact hall q hq
  · rw [hw] at hq
    rw [List.eq_of_mem_replicate hq]
    exact h0

/-- After a worker's step each other worker stands where it stood. -/
theorem Works.of_mem_set {n : Nat} {p p' q : Position} (hz : d.Asleep)
    (hat : d.workers[n]? = some p) (h : Works b d n p d' p' events)
    (hq : q ∈ d'.workers.set n p') : q = p' ∨ ∃ m, m ≠ n ∧ d.workers[m]? = some q := by
  obtain ⟨m, hm⟩ := List.mem_iff_getElem?.1 hq
  rw [h.workers_eq hz hat] at hm
  by_cases hmn : m = n
  · subst hmn
    rw [List.getElem?_set_self (List.getElem?_eq_some_iff.1 hat).1] at hm
    cases hm
    exact .inl rfl
  · rw [List.getElem?_set_ne (Ne.symm hmn)] at hm
    exact .inr ⟨m, hmn, hm⟩

/-- A worker's step has to establish it of that worker alone. -/
theorem Works.forall_workers {n : Nat} {p p' : Position} {P : Position → Prop} (hz : d.Asleep)
    (hat : d.workers[n]? = some p) (hall : ∀ q ∈ d.workers, P q) (h : Works b d n p d' p' events)
    (hp : P p') : ∀ q ∈ d'.workers.set n p', P q := by
  intro q hq
  rcases h.of_mem_set hz hat hq with rfl | ⟨m, -, hm⟩
  · exact hp
  · exact hall q (List.mem_of_getElem? hm)

end OverWorkers

/-! ## What a worker tells -/

end Desk

namespace Position

/-- What the next step records. -/
def records : Position → List (Item × Settlement)
  | .recording item s => [(item, s)]
  | _ => []

/-- The item for which the broker is asked next. -/
def asks : Position → List Item
  | .quoting item => [item]
  | _ => []

/-- The item that the broker has to do with next. -/
def atBroker : Position → List Item
  | .quoting item | .calling item _ | .awaiting item _ => [item]
  | _ => []

/-- What the next step of a callback hands to a mailbox. -/
def delivers : Position → List (Nat × Settlement)
  | .notifying _ s ⟨none, .deliver box :: _⟩ => [(box, s)]
  | _ => []

end Position

/-- The fill in an answer, if it is one. -/
def Reply.fill? : Reply Outcome → Option Fill
  | .answer (.filled fill) => some fill
  | _ => none

namespace Desk

variable {β : Type} {b : Broker β}

/-- The fill that the broker answers with next. -/
def fills (b : Broker β) (d : Desk β) : Position → List Fill
  | .awaiting item _ => (b.execute d.broker d.now item.order).reply.fill?.toList
  | _ => []

/-- The events of a step from position `p`, kind by kind. -/
structure Told (b : Broker β) (d : Desk β) (p : Position) (events : List Event) : Prop where
  recorded : events.filterMap Event.recorded? = p.records
  notified : events.filterMap Event.notified? = p.records.filter fun e => e.1.callback.isSome
  delivered : events.filterMap Event.delivered? = p.delivers
  asked : events.filterMap Event.asked? = p.asks
  brokered : events.filterMap Event.brokered? ⊆ p.atBroker
  filled : events.filterMap Event.filled? = fills b d p

/-- Of what leads up to a call only the call itself can count. -/
theorem filterMap_call {α : Type} {f : Event → Option α} {waiting : Event} (hf : f waiting = none)
    (attempt : UInt32) (item : Item) :
    ((if attempt = 0 then [] else [waiting]) ++ [Event.called item]).filterMap f =
      (f (.called item)).toList := by
  have hw : (if attempt = 0 then [] else [waiting]).filterMap f = [] := by
    split
    · rfl
    · exact List.filterMap_cons_none hf
  rw [List.filterMap_append, hw, List.nil_append, List.filterMap_cons]
  cases f (.called item) <;> rfl

/-- Of what follows an answer only the answer itself and the end can count. -/
theorem filterMap_answer {α : Type} {f : Event → Option α} (hf : ∀ text, f (.noted text) = none)
    (answer : Event) (texts : List String) (rest : List Event) :
    (answer :: texts.map Event.noted ++ rest).filterMap f =
      (f answer).toList ++ rest.filterMap f := by
  have hn : (texts.map Event.noted).filterMap f = [] := by
    rw [List.filterMap_map, List.filterMap_eq_nil_iff]
    intro text _
    exact hf text
  rw [List.cons_append, List.filterMap_cons, List.filterMap_append, hn]
  cases f answer <;> rfl

/-- Nor does the word on the settlement that the answer leads to. -/
theorem filterMap_settled {α : Type} {f : Event → Option α} (hn : ∀ text, f (.noted text) = none)
    (he : ∀ s, f (.executed s) = none) (hf : ∀ s, f (.failed s) = none) (answer last : Event)
    (texts : List String) (s : Settlement) :
    (answer :: texts.map Event.noted ++ [if s.isSuccess then Event.executed s else .failed s] ++
      [last]).filterMap f = (f answer).toList ++ (f last).toList := by
  have hword : f (if s.isSuccess then Event.executed s else .failed s) = none := by
    split
    · exact he s
    · exact hf s
  rw [List.append_assoc, filterMap_answer hn, List.cons_append, List.nil_append,
    List.filterMap_cons_none hword, List.filterMap_cons]
  cases f last <;> rfl

theorem Works.told {n : Nat} {d d' : Desk β} {p p' : Position} {events : List Event}
    (h : Works b d n p d' p' events) : Told b d p events := by
  cases h with
  | quoteBroke item s h =>
    refine ⟨rfl, rfl, rfl, rfl, ?_, rfl⟩
    show [item, item] ⊆ [item]
    simp
  | call item attempt number hnumber =>
    refine ⟨filterMap_call rfl .., filterMap_call rfl .., filterMap_call rfl ..,
      filterMap_call rfl .., ?_, filterMap_call rfl ..⟩
    rw [filterMap_call rfl]
    exact List.Subset.refl [item]
  | overrun item attempt h => exact ⟨rfl, rfl, rfl, rfl, List.nil_subset _, rfl⟩
  | executeBroke item attempt h =>
    refine ⟨rfl, rfl, rfl, rfl, List.Subset.refl [item], ?_⟩
    rw [fills, h]
    rfl
  | again item attempt outcome failure h hn =>
    refine ⟨?_, ?_, ?_, ?_, ?_, ?_⟩ <;> rw [filterMap_answer fun _ => rfl]
    case refine_5 => exact List.Subset.refl [item]
    case refine_6 => rw [fills, h]; cases outcome <;> rfl
    all_goals rfl
  | settle item attempt outcome s h hn =>
    refine ⟨?_, ?_, ?_, ?_, ?_, ?_⟩ <;>
      rw [filterMap_settled (fun _ => rfl) (fun _ => rfl) fun _ => rfl]
    case refine_5 => exact List.Subset.refl [item]
    case refine_6 => rw [fills, h]; cases outcome <;> rfl
    all_goals rfl
  | record item s h =>
    refine ⟨rfl, ?_, rfl, rfl, List.Subset.refl [], rfl⟩
    rw [Position.records, List.filter_cons_of_neg (by simp [h])]
    rfl
  | recordAndNotify item s calls h =>
    refine ⟨rfl, ?_, rfl, rfl, List.Subset.refl [], rfl⟩
    rw [Position.records, List.filter_cons_of_pos (by simp [h])]
    rfl
  | act item s q d' q' events h hd hf =>
    have hw := h.frame
    refine ⟨hw.recorded, hw.notified, ?_, hw.asked, ?_, hw.filled⟩
    · rw [hw.delivered]
      obtain ⟨pending, calls⟩ := q
      cases pending with
      | some pending => rfl
      | none =>
        cases calls with
        | nil => rfl
        | cons call calls =>
          cases call with
          | deliver box => exact absurd rfl (hd box calls)
          | _ => rfl
    · rw [hw.brokered]
      exact List.nil_subset _
  | _ => exact ⟨rfl, rfl, rfl, rfl, List.Subset.refl _, rfl⟩

/-- If a step balances where it happens, it balances over all workers. -/
theorem balance_over_workers {M : Type} [AddCancelCommMonoid M] {x x' a r p p' w w' : M}
    (hstep : x + p + a = x' + p' + r) (hworkers : w' + p = w + p') :
    x + w + a = x' + w' + r := by
  apply add_right_cancel (b := p')
  calc x + w + a + p' = x + (w + p') + a := by ac_rfl
    _ = x + (w' + p) + a := by rw [hworkers]
    _ = w' + (x + p + a) := by ac_rfl
    _ = w' + (x' + p' + r) := by rw [hstep]
    _ = x' + w' + r + p' := by ac_rfl

end Desk

end DealDesk
