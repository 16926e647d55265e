import DealDesk.Proofs.Desk.Effects
import DealDesk.Proofs.Register.Fresh

/-!
# Where an accepted item is

* `Settles i s` — settlement `s` names item `i`, and has a ticket and a price or an error text.
* `Position.unrecorded` — the item in a worker's hands that is not yet recorded.
* `Tended` — every accepted item waits, is in a worker's hands, or is recorded, and only once; what is
  recorded for an item settles it.
* `Custody` — and the register is that of the recorded settlements.

`follow_custody` is the main result: it holds after every run of a desk with its own register.
-/

namespace DealDesk

/-- A settlement of an item: it carries the item's names and number, and has a ticket and a price
on success and an error text otherwise. -/
structure Settles (item : Item) (s : Settlement) : Prop where
  orderId : s.orderId = item.order.id
  client : s.client = item.order.client
  sequence : s.sequence = item.sequence
  shape : (s.status = .success ∧ s.ticket.isSome ∧ s.price.isSome ∧ s.error = none) ∨
    (s.status ≠ .success ∧ s.ticket = none ∧ s.price = none ∧ s.error.isSome)

theorem Objection.status_ne_success (why : Objection) : why.status ≠ .success := by
  cases why <;> simp [Objection.status]

namespace Settles

theorem ofRefused (now : Int64) (item : Item) {status : Status} (error : String)
    (h : status ≠ .success) :
    Settles item ((Settlement.refused now item.order status error).withSequence item.sequence) :=
  ⟨rfl, rfl, rfl, .inr ⟨h, rfl, rfl, rfl⟩⟩

theorem ofObjection (now : Int64) (item : Item) (why : Objection) :
    Settles item ((why.settlement now item.order).withSequence item.sequence) :=
  ofRefused now item _ why.status_ne_success

theorem ofNext {r : RetryRule} {now : Int64} {item : Item} {attempt : UInt32} {outcome : Outcome}
    {s : Settlement} (h : r.next now item.order attempt outcome = .settle s) :
    Settles item (s.withSequence item.sequence) := by
  cases outcome with
  | filled fill => cases h; exact ⟨rfl, rfl, rfl, .inl ⟨rfl, rfl, rfl, rfl⟩⟩
  | failed failure =>
    simp only [RetryRule.next] at h
    split at h
    · cases h; exact ⟨rfl, rfl, rfl, .inr ⟨failure.kind.status_ne_success, rfl, rfl, rfl⟩⟩
    · split at h
      · cases h; exact ⟨rfl, rfl, rfl, .inr ⟨nofun, rfl, rfl, rfl⟩⟩
      · cases h

/-- Settlements bear the numbers of the items that they settle. -/
theorem sequences_eq {recorded : List (Item × Settlement)} (h : ∀ e ∈ recorded, Settles e.1 e.2) :
    (recorded.map Prod.snd).map (·.sequence) = (recorded.map Prod.fst).map (·.sequence) := by
  rw [List.map_map, List.map_map]
  exact List.map_congr_left fun e he => (h e he).sequence

/-- Settlements of items with different numbers have different numbers. -/
theorem sequences_nodup {recorded : List (Item × Settlement)} {accepted : List Item}
    (h : ∀ e ∈ recorded, Settles e.1 e.2) (hsub : (recorded.map Prod.fst).Subperm accepted)
    (hnodup : (accepted.map (·.sequence)).Nodup) :
    ((recorded.map Prod.snd).map (·.sequence)).Nodup := by
  have hle := Multiset.map_le_map (f := fun i : Item => i.sequence) (Multiset.coe_le.2 hsub)
  rw [sequences_eq h]
  exact Multiset.coe_nodup.1 (Multiset.nodup_of_le hle (Multiset.coe_nodup.2 hnodup))

end Settles

/-- No outcome of an execution is settled as a duplicate. -/
theorem RetryRule.status_ne_duplicate {r : RetryRule} {now : Int64} {o : Order} {attempt : UInt32}
    {outcome : Outcome} {s : Settlement} (h : r.next now o attempt outcome = .settle s) :
    s.status ≠ .duplicate := by
  cases outcome with
  | filled fill => cases h; nofun
  | failed failure =>
    simp only [RetryRule.next] at h
    split at h
    · cases h; exact failure.kind.status_ne_duplicate
    · split at h
      · cases h; nofun
      · cases h

/-! ## Items on their way -/

namespace Position

/-- The item in hand that is not yet recorded. -/
def unrecorded : Position → Multiset Item
  | .validating item | .quoting item | .calling item _ | .awaiting item _ | .recording item _ =>
    {item}
  | .starting | .dequeuing | .notifying _ _ _ | .stopped => 0

/-- The same as a list, for what comes in order. -/
def inHand : Position → List Item
  | .validating item | .quoting item | .calling item _ | .awaiting item _ | .recording item _ =>
    [item]
  | .starting | .dequeuing | .notifying _ _ _ | .stopped => []

theorem unrecorded_eq (p : Position) : p.unrecorded = ↑p.inHand := by
  cases p <;> rfl

/-- A settlement that is about to be recorded settles the item in hand. -/
def Sound : Position → Prop
  | .recording item s => Settles item s
  | _ => True

/-- The settlement that a callback is told of is on record. -/
def OnRecord (recorded : List (Item × Settlement)) : Position → Prop
  | .notifying item s _ => (item, s) ∈ recorded
  | _ => True

theorem OnRecord.mono {recorded recorded' : List (Item × Settlement)} (hr : recorded ⊆ recorded')
    {p : Position} (h : p.OnRecord recorded) : p.OnRecord recorded' := by
  cases p with
  | notifying item s q => exact hr h
  | _ => trivial

end Position

namespace Desk

variable {β : Type} {b : Broker β}

/-- **The line moves on in order**: what a worker takes comes from its front, what it records it had
in hand, and what is accepted goes to its end. -/
theorem Works.line {n : Nat} {d d' : Desk β} {p p' : Position} {events : List Event}
    (h : Works b d n p d' p' events) :
    p.inHand ++ (d.backlog.items ++ events.filterMap Event.accepted?) =
      p.records.map Prod.fst ++ (p'.inHand ++ d'.backlog.items) := by
  have quiet : events.filterMap Event.accepted? = [] → d'.backlog.items = d.backlog.items →
      p.inHand = p.records.map Prod.fst ++ p'.inHand →
      p.inHand ++ (d.backlog.items ++ events.filterMap Event.accepted?) =
        p.records.map Prod.fst ++ (p'.inHand ++ d'.backlog.items) := by
    intro hnone hitems hhand
    rw [hnone, hitems, List.append_nil, hhand, List.append_assoc]
  cases h with
  | take item rest h =>
    rw [h]
    exact List.append_nil _
  | call item attempt number hnumber => exact quiet (filterMap_call rfl ..) rfl rfl
  | again item attempt outcome failure h hn =>
    refine quiet ?_ rfl rfl
    rw [filterMap_answer fun _ => rfl]
    rfl
  | settle item attempt outcome s h hn =>
    exact quiet (filterMap_settled (fun _ => rfl) (fun _ => rfl) (fun _ => rfl) ..) rfl rfl
  | act item s q d' q' events h hd hf => exact h.frame.items.symm
  | _ => exact quiet rfl rfl rfl

/-- What a worker takes it has in hand, and what it records it had in hand. -/
theorem Works.unrecorded_add {n : Nat} {d d' : Desk β} {p p' : Position} {events : List Event}
    (h : Works b d n p d' p' events) :
    (↑d.backlog.items + p.unrecorded + ↑(events.filterMap Event.accepted?) : Multiset Item) =
      ↑d'.backlog.items + p'.unrecorded + ↑(p.records.map Prod.fst) := by
  have hline := congrArg (Multiset.ofList) h.line
  rw [← Multiset.coe_add, ← Multiset.coe_add, ← Multiset.coe_add, ← Multiset.coe_add] at hline
  rw [p.unrecorded_eq, p'.unrecorded_eq, add_comm (↑d.backlog.items : Multiset Item), add_assoc,
    hline]
  ac_rfl

theorem Works.register_eq {n : Nat} {d d' : Desk β} {p p' : Position} {events : List Event}
    (h : Works b d n p d' p' events) :
    d'.register = { (p.records.map Prod.snd).foldl Register.record d.register with
      nextSequence := d'.register.nextSequence } := by
  cases h with
  | act item s q d' q' events h hd hf => exact h.frame.register
  | _ => rfl

/-- A worker comes to record only what settles the item in its hands. -/
theorem Works.sound {n : Nat} {d d' : Desk β} {p p' : Position} {events : List Event}
    (h : Works b d n p d' p' events) : p'.Sound := by
  cases h with
  | duplicate item h => exact .ofObjection d.now item .duplicate
  | flawed item why h hf => exact .ofObjection d.now item why
  | quoteBroke item s h => exact .ofRefused d.now item breakText nofun
  | clash item i s why h hc => exact .ofObjection d.now item why
  | overrun item attempt h => exact .ofRefused d.now item breakText nofun
  | executeBroke item attempt h => exact .ofRefused d.now item breakText nofun
  | settle item attempt outcome s h hn => exact .ofNext hn
  | _ => trivial

/-- A callback runs after its settlement is recorded. -/
theorem Works.onRecord {n : Nat} {d d' : Desk β} {p p' : Position} {events : List Event}
    {recorded : List (Item × Settlement)} (hp : p.OnRecord recorded)
    (h : Works b d n p d' p' events) : p'.OnRecord (recorded ++ p.records) := by
  cases h with
  | recordAndNotify item s calls h => exact List.mem_append_right _ (List.mem_singleton.2 rfl)
  | deliver item s box calls => exact List.mem_append_left _ hp
  | act item s q d' q' events h hd hf => exact List.mem_append_left _ hp
  | _ => trivial

/-- **No step loses an item or makes up one.** -/
theorem Moves.unrecorded_add {t : Thread} {d d' : Desk β} {events : List Event} (hz : d.Asleep)
    (h : Moves b t d d' events) :
    (↑d.backlog.items + overWorkers Position.unrecorded d +
        ↑(events.filterMap Event.accepted?) : Multiset Item) =
      ↑d'.backlog.items + overWorkers Position.unrecorded d' +
        ↑((events.filterMap Event.recorded?).map Prod.fst) := by
  cases h with
  | @caller n d d' p p' events hat h =>
    have hw : overWorkers Position.unrecorded d' = overWorkers Position.unrecorded d :=
      h.overWorkers_eq rfl hz
    rw [h.frame.recorded]
    show _ = (↑d'.backlog.items + overWorkers Position.unrecorded d' + 0 : Multiset Item)
    rw [hw, h.frame.items, ← Multiset.coe_add]
    ac_rfl
  | worker hat h =>
    rw [h.told.recorded]
    exact balance_over_workers h.unrecorded_add (h.overWorkers_add hz hat)

theorem Moves.register_eq {t : Thread} {d d' : Desk β} {events : List Event}
    (h : Moves b t d d' events) :
    d'.register = { ((events.filterMap Event.recorded?).map Prod.snd).foldl Register.record
      d.register with nextSequence := d'.register.nextSequence } := by
  cases h with
  | caller hat h => rw [h.frame.recorded]; exact h.frame.register
  | worker hat h => rw [h.told.recorded]; exact h.register_eq

theorem Moves.sound {t : Thread} {d d' : Desk β} {events : List Event} (hz : d.Asleep)
    (hs : ∀ p ∈ d.workers, p.Sound) (h : Moves b t d d' events) : ∀ p ∈ d'.workers, p.Sound := by
  cases h with
  | caller hat h => exact fun p hp => h.forall_workers (P := Position.Sound) trivial hs p hp
  | worker hat h => exact h.forall_workers hz hat hs h.sound

theorem Moves.onRecord {t : Thread} {d d' : Desk β} {events : List Event}
    {recorded : List (Item × Settlement)} (hz : d.Asleep)
    (hr : ∀ p ∈ d.workers, p.OnRecord recorded) (h : Moves b t d d' events) :
    ∀ p ∈ d'.workers, p.OnRecord (recorded ++ events.filterMap Event.recorded?) := by
  cases h with
  | caller hat h =>
    rw [h.frame.recorded, List.append_nil]
    have hw := h.forall_workers (P := Position.OnRecord recorded) trivial hr
    exact hw
  | @worker n d d' p p' events hat h =>
    rw [h.told.recorded]
    have hr' : ∀ q ∈ d.workers, q.OnRecord (recorded ++ p.records) :=
      fun q hq => (hr q hq).mono (List.subset_append_left _ _)
    exact h.forall_workers hz hat hr' (h.onRecord (hr p (List.mem_of_getElem? hat)))

/-- What a step records settles its item. -/
theorem Moves.settles {t : Thread} {d d' : Desk β} {events : List Event}
    (hs : ∀ p ∈ d.workers, p.Sound) (h : Moves b t d d' events) :
    ∀ e ∈ events.filterMap Event.recorded?, Settles e.1 e.2 := by
  intro e he
  cases h with
  | caller hat h => rw [h.frame.recorded] at he; cases he
  | @worker n d d' p p' events hat h =>
    rw [h.told.recorded] at he
    have hp := hs p (List.mem_of_getElem? hat)
    cases p with
    | recording item s => rw [List.mem_singleton.mp he]; exact hp
    | _ => cases he

/-! ## The invariants -/

/-- Each accepted item waits, is in a worker's hands or is recorded, whichever register its records go
to. -/
structure Tended (d : Desk β) (tr : Trace) : Prop where
  asleep : d.Asleep
  items : (↑tr.accepted : Multiset Item) =
    ↑d.backlog.items + overWorkers Position.unrecorded d + ↑(tr.recorded.map Prod.fst)
  sound : ∀ p ∈ d.workers, p.Sound
  onRecord : ∀ p ∈ d.workers, p.OnRecord tr.recorded
  settles : ∀ e ∈ tr.recorded, Settles e.1 e.2

namespace Tended

variable {d d' : Desk β} {tr : Trace}

theorem start (settings : Settings) (s : β) (register : Register) (programs : List (List Call)) :
    Tended ((closed settings s register).withCallers programs) [] where
  asleep _ := rfl
  items := rfl
  sound _ h := by cases h
  onRecord _ h := by cases h
  settles _ h := by cases h

theorem clock (now : Int64) (ht : Tended d tr) : Tended { d with now := now } tr :=
  ⟨ht.asleep, ht.items, ht.sound, ht.onRecord, ht.settles⟩

theorem step {t : Thread} {events : List Event} (ht : Tended d tr) (h : Moves b t d d' events) :
    Tended d' (tr ++ Trace.ofStep t events) where
  asleep := h.asleep ht.asleep
  items := by
    have hi := ht.items
    have hb := h.unrecorded_add ht.asleep
    simp only [Trace.recorded, Trace.accepted, Trace.pick_step, List.map_append,
      ← Multiset.coe_add] at hi ⊢
    rw [hi, add_right_comm, hb]
    ac_rfl
  sound := h.sound ht.asleep ht.sound
  onRecord := by
    rw [Trace.recorded, Trace.pick_step]
    exact h.onRecord ht.asleep ht.onRecord
  settles := by
    intro e he
    simp only [Trace.recorded, Trace.pick_step, List.mem_append] at he
    rcases he with he | he
    · exact ht.settles e he
    · exact h.settles ht.sound e he

/-- An item in a worker's hands was accepted. -/
theorem mem_accepted (ht : Tended d tr) {p : Position} (hp : p ∈ d.workers) {i : Item}
    (hi : i ∈ p.unrecorded) : i ∈ tr.accepted := by
  have hm : i ∈ (↑tr.accepted : Multiset Item) := by
    rw [ht.items]
    exact Multiset.mem_add.2 (.inl (Multiset.mem_add.2 (.inr (mem_overWorkers.2 ⟨p, hp, hi⟩))))
  exact hm

/-- What is recorded was accepted, each item as often. -/
theorem recorded_subperm (ht : Tended d tr) : (tr.recorded.map Prod.fst).Subperm tr.accepted := by
  rw [← Multiset.coe_le, ht.items]
  exact Multiset.le_add_left _ _

end Tended

/-- The items are tended, and the desk's own register holds the records. -/
structure Custody (d : Desk β) (tr : Trace) : Prop extends Tended d tr where
  register : d.register =
    { Register.ofHistory tr.settlements with nextSequence := d.register.nextSequence }

theorem Custody.start (settings : Settings) (s : β) (programs : List (List Call)) :
    Custody ((closed settings s Register.empty).withCallers programs) [] :=
  ⟨.start settings s Register.empty programs, rfl⟩

theorem Custody.clock {d : Desk β} {tr : Trace} (now : Int64) (hc : Custody d tr) :
    Custody { d with now := now } tr :=
  ⟨hc.toTended.clock now, hc.register⟩

theorem Custody.step {t : Thread} {d d' : Desk β} {events : List Event} {tr : Trace}
    (hc : Custody d tr) (h : Moves b t d d' events) : Custody d' (tr ++ Trace.ofStep t events) := by
  refine ⟨hc.toTended.step h, ?_⟩
  have hr := h.register_eq
  rw [hc.register, Register.foldl_record_withNext] at hr
  rw [Trace.settlements_step, Register.ofHistory_append]
  exact hr

/-- The settings are good, and the desk has not been started. -/
theorem open?_eq {settings : Settings} {s : β} {register : Register} {d : Desk β}
    (h : open? settings s register = .ok d) :
    d = closed settings s register ∧ settings.workers ≠ 0 := by
  unfold open? at h
  split at h
  · cases h
  · rename_i hc
    cases h
    refine ⟨rfl, fun hw => ?_⟩
    simp [Settings.check, hw] at hc

theorem follow_tended {settings : Settings} {s : β} {register : Register}
    {programs : List (List Call)} {schedule : List Turn} {d₀ d : Desk β} {tr : Trace}
    (hopen : open? settings s register = .ok d₀)
    (hrun : (d₀.withCallers programs).follow b schedule = some (d, tr)) : Tended d tr := by
  obtain ⟨rfl, -⟩ := open?_eq hopen
  exact follow_invariant (P := Tended) Tended.clock Tended.step
    (Tended.start settings s register programs) hrun

/-- **Custody after every run.** -/
theorem follow_custody {settings : Settings} {s : β} {programs : List (List Call)}
    {schedule : List Turn} {d₀ d : Desk β} {tr : Trace}
    (hopen : open? settings s Register.empty = .ok d₀)
    (hrun : (d₀.withCallers programs).follow b schedule = some (d, tr)) : Custody d tr := by
  obtain ⟨rfl, -⟩ := open?_eq hopen
  exact follow_invariant (P := Custody) Custody.clock Custody.step
    (Custody.start settings s programs) hrun

end Desk

end DealDesk
