import DealDesk.Proofs.Desk.Custody

/-!
# Which names have passed the gate

* `originalNames` — the names among some records, those of repetitions left out.
* `Position.admitted` — the name of the item in hand, once the gate has let it pass.
* `Naming` — every name the gate has seen belongs to one item that it admitted, in a worker's hands
  or recorded. The broker was asked for at most one item of a name and has to do with no other.

`follow_naming` is the main result; `Naming.originals_nodup` and `Naming.brokered_eq` draw the
consequences.
-/

namespace DealDesk

/-! ## Objections that are none to the name -/

theorem Objection.eq_duplicate {why : Objection} (h : why.status = .duplicate) :
    why = .duplicate := by
  cases why <;> first | rfl | cases h

theorem Order.flaw_status {o : Order} {why : Objection} (h : o.flaw = some why) :
    why.status ≠ .duplicate := by
  intro hd
  have hw := Objection.eq_duplicate hd
  subst hw
  unfold Order.flaw at h
  repeat' split at h
  all_goals cases h

theorem Order.clash_status {o : Order} {i : Option Instrument} {why : Objection}
    (h : o.clash i = some why) : why.status ≠ .duplicate := by
  intro hd
  have hw := Objection.eq_duplicate hd
  subst hw
  unfold Order.clash at h
  repeat' split at h
  all_goals cases h

/-! ## Originals -/

/-- The names of the originals among some records. -/
def originalNames (records : List (Item × Settlement)) : List OrderId :=
  (records.filter fun e => e.2.isOriginal).map fun e => e.1.order.id

theorem originalNames_append (l l' : List (Item × Settlement)) :
    originalNames (l ++ l') = originalNames l ++ originalNames l' := by
  simp only [originalNames, List.filter_append, List.map_append]

namespace Position

/-- The name of the item in hand, once the gate has admitted it. -/
def admitted : Position → Multiset OrderId
  | .quoting item | .calling item _ | .awaiting item _ => {item.order.id}
  | .recording item s => if s.isOriginal then {item.order.id} else 0
  | .starting | .dequeuing | .validating _ | .notifying _ _ _ | .stopped => 0

/-- The name that is shown to the gate next. -/
def unvetted : Position → Multiset OrderId
  | .validating item => {item.order.id}
  | _ => 0

/-- The name for which the broker is to be asked next. -/
def unasked (p : Position) : Multiset OrderId := ↑(p.asks.map fun i => i.order.id)

/-- What the gate has noted and the broker was asked, seen from the item in hand. -/
def Vetted (seen : List OrderId) (asked : List Item) : Position → Prop
  | .quoting item | .recording item _ => item.order.id ∈ seen
  | .calling item _ | .awaiting item _ => item ∈ asked
  | .starting | .dequeuing | .validating _ | .notifying _ _ _ | .stopped => True

theorem Vetted.mono {seen seen' : List OrderId} {asked asked' : List Item} (hs : seen ⊆ seen')
    (ha : asked ⊆ asked') {p : Position} (h : p.Vetted seen asked) : p.Vetted seen' asked' := by
  cases p with
  | quoting item => exact hs h
  | recording item s => exact hs h
  | calling item attempt => exact ha h
  | awaiting item attempt => exact ha h
  | _ => trivial

/-- Whatever is admitted is yet to be recorded. -/
theorem admitted_le (p : Position) : p.admitted ≤ p.unrecorded.map fun i => i.order.id := by
  cases p with
  | recording item s =>
    cases hs : s.isOriginal <;> simp [admitted, unrecorded, hs]
  | _ => simp [admitted, unrecorded]

theorem admitted_add_unvetted_le (p : Position) :
    p.admitted + p.unvetted ≤ p.unrecorded.map fun i => i.order.id := by
  cases p with
  | validating item => exact (zero_add _).le
  | _ => exact (add_zero _).trans_le (admitted_le _)

end Position

namespace Desk

variable {β : Type} {b : Broker β} {n : Nat} {t : Thread} {d d' : Desk β} {p p' : Position}
  {q : Position} {m : Nat} {events : List Event} {tr : Trace}

/-! ## What a step does -/

/-- The gate notes a name and hands the item on under it; a record takes the name over. -/
theorem Works.admitted_add (h : Works b d n p d' p' events) :
    (↑d'.gate.seen + p.admitted + 0 : Multiset OrderId) =
      ↑d.gate.seen + p'.admitted + ↑(originalNames p.records) := by
  have note : ∀ id : OrderId, (↑(id :: d.gate.seen) + 0 + 0 : Multiset OrderId) =
      ↑d.gate.seen + {id} + 0 := by
    intro id
    rw [← Multiset.cons_coe, ← Multiset.singleton_add]
    ac_rfl
  have pass : ∀ (item : Item) (s : Settlement), s.status ≠ .duplicate →
      (Position.recording item s).admitted = {item.order.id} := by
    intro item s hs
    simp only [Position.admitted, Settlement.isOriginal_iff.2 hs, if_true]
  have file : ∀ (item : Item) (s : Settlement),
      (↑d.gate.seen + (Position.recording item s).admitted + 0 : Multiset OrderId) =
        ↑d.gate.seen + 0 + ↑(originalNames [(item, s)]) := by
    intro item s
    rw [add_zero, add_zero, Position.admitted, originalNames]
    cases hs : s.isOriginal <;> simp [hs]
  cases h with
  | flawed item why h hf =>
    rw [pass item _ (Order.flaw_status hf)]
    exact note item.order.id
  | enter item h hf => exact note item.order.id
  | quoteBroke item s h => rw [pass item _ (nofun : Status.connectionError ≠ .duplicate)]; rfl
  | clash item i s why h hc => rw [pass item _ (Order.clash_status hc)]; rfl
  | executeBroke item attempt h =>
    rw [pass item _ (nofun : Status.connectionError ≠ .duplicate)]
    rfl
  | settle item attempt outcome s h hn =>
    have hs : s.status ≠ .duplicate := RetryRule.status_ne_duplicate hn
    rw [pass item (s.withSequence item.sequence) hs]
    rfl
  | record item s h => exact file item s
  | recordAndNotify item s calls h => exact file item s
  | act item s q d' q' events h hd hf => rw [h.frame.gate]; rfl
  | _ => rfl

theorem Works.seen_subset (h : Works b d n p d' p' events) : d.gate.seen ⊆ d'.gate.seen := by
  cases h with
  | flawed item why h hf => exact List.subset_cons_self _ _
  | enter item h hf => exact List.subset_cons_self _ _
  | act item s q d' q' events h hd hf => rw [h.frame.gate]; exact List.Subset.refl _
  | _ => exact List.Subset.refl _

theorem Works.seen_nodup (hn : d.gate.seen.Nodup) (h : Works b d n p d' p' events) :
    d'.gate.seen.Nodup := by
  cases h with
  | flawed item why h hf => exact List.nodup_cons.2 ⟨h, hn⟩
  | enter item h hf => exact List.nodup_cons.2 ⟨h, hn⟩
  | act item s q d' q' events h hd hf => rw [h.frame.gate]; exact hn
  | _ => exact hn

/-- A name is asked for after the gate has noted it, and is not asked for again. -/
theorem Works.unasked_le (h : Works b d n p d' p' events) :
    p'.unasked + ↑d.gate.seen ≤ ↑d'.gate.seen := by
  cases h with
  | flawed item why h hf =>
    rw [← Multiset.cons_coe]
    exact (zero_add _).trans_le (Multiset.le_cons_self _ _)
  | enter item h hf =>
    rw [← Multiset.cons_coe, ← Multiset.singleton_add]
    exact le_refl _
  | act item s q d' q' events h hd hf => rw [h.frame.gate]; exact (zero_add _).le
  | _ => exact (zero_add _).le

theorem Works.vetted (hv : p.Vetted d.gate.seen tr.asked)
    (ha : ∀ i ∈ tr.asked, i.order.id ∈ d.gate.seen) (h : Works b d n p d' p' events) :
    p'.Vetted d'.gate.seen (tr.asked ++ p.asks) := by
  cases h with
  | duplicate item h => exact h
  | flawed item why h hf => exact List.mem_cons_self
  | enter item h hf => exact List.mem_cons_self
  | quoteBroke item s h => exact hv
  | clash item i s why h hc => exact hv
  | clear item i s h hc => exact List.mem_append_right _ (List.mem_singleton.2 rfl)
  | call item attempt number hnumber => exact List.mem_append_left _ hv
  | overrun item attempt h => exact ha item hv
  | executeBroke item attempt h => exact ha item hv
  | again item attempt outcome failure h hn => exact List.mem_append_left _ hv
  | settle item attempt outcome s h hn => exact ha item hv
  | _ => trivial

theorem mem_asked_of_atBroker (hv : p.Vetted d.gate.seen tr.asked) :
    ∀ i ∈ p.atBroker, i ∈ tr.asked ++ p.asks := by
  intro i hi
  cases p with
  | quoting item => exact List.mem_append_right _ hi
  | calling item attempt => rw [List.mem_singleton.1 hi]; exact List.mem_append_left _ hv
  | awaiting item attempt => rw [List.mem_singleton.1 hi]; exact List.mem_append_left _ hv
  | _ => cases hi

theorem Moves.admitted_add (hz : d.Asleep) (h : Moves b t d d' events) :
    (↑d'.gate.seen + overWorkers Position.admitted d + 0 : Multiset OrderId) =
      ↑d.gate.seen + overWorkers Position.admitted d' +
        ↑(originalNames (events.filterMap Event.recorded?)) := by
  cases h with
  | @caller n d d' p p' events hat h =>
    have hw : overWorkers Position.admitted d' = overWorkers Position.admitted d :=
      h.overWorkers_eq rfl hz
    rw [h.frame.recorded]
    show (↑d'.gate.seen + _ + 0 : Multiset OrderId) = _ + overWorkers Position.admitted d' + 0
    rw [h.frame.gate, hw]
  | worker hat h =>
    rw [h.told.recorded]
    exact balance_over_workers h.admitted_add (h.overWorkers_add hz hat)

theorem Moves.seen_subset (h : Moves b t d d' events) : d.gate.seen ⊆ d'.gate.seen := by
  cases h with
  | @caller n d d' p p' events hat h =>
    show d.gate.seen ⊆ d'.gate.seen
    rw [h.frame.gate]
    exact List.Subset.refl _
  | worker hat h => exact h.seen_subset

theorem Moves.seen_nodup (hn : d.gate.seen.Nodup) (h : Moves b t d d' events) :
    d'.gate.seen.Nodup := by
  cases h with
  | @caller n d d' p p' events hat h =>
    show d'.gate.seen.Nodup
    rw [h.frame.gate]
    exact hn
  | worker hat h =>
    have hs := h.seen_nodup hn
    exact hs

/-- The names asked for and those yet to be asked for stay within the names seen. -/
theorem Moves.unasked_le {asked : Multiset OrderId} (hz : d.Asleep)
    (ha : asked + overWorkers Position.unasked d ≤ ↑d.gate.seen) (h : Moves b t d d' events) :
    asked + ↑((events.filterMap Event.asked?).map fun i => i.order.id) +
      overWorkers Position.unasked d' ≤ ↑d'.gate.seen := by
  cases h with
  | @caller n d d' p p' events hat h =>
    have hw : overWorkers Position.unasked d' = overWorkers Position.unasked d :=
      h.overWorkers_eq rfl hz
    rw [h.frame.asked]
    show asked + 0 + overWorkers Position.unasked d' ≤ ↑d'.gate.seen
    rw [add_zero, hw, h.frame.gate]
    exact ha
  | @worker n d d' p p' events hat h =>
    rw [h.told.asked]
    show asked + p.unasked + _ ≤ ↑d'.gate.seen
    have hw := h.overWorkers_add (f := Position.unasked) hz hat
    calc asked + p.unasked + overWorkers Position.unasked { d' with workers := d'.workers.set n p' }
        = asked + (overWorkers Position.unasked { d' with workers := d'.workers.set n p' } +
            p.unasked) := by ac_rfl
      _ = asked + overWorkers Position.unasked d + p'.unasked := by rw [hw, add_assoc]
      _ ≤ ↑d.gate.seen + p'.unasked := add_le_add_left ha _
      _ = p'.unasked + ↑d.gate.seen := add_comm _ _
      _ ≤ ↑d'.gate.seen := h.unasked_le

theorem Moves.vetted (hz : d.Asleep) (hv : ∀ p ∈ d.workers, p.Vetted d.gate.seen tr.asked)
    (ha : ∀ i ∈ tr.asked, i.order.id ∈ d.gate.seen) (h : Moves b t d d' events) :
    ∀ p ∈ d'.workers, p.Vetted d'.gate.seen (tr.asked ++ events.filterMap Event.asked?) := by
  have hs := h.seen_subset
  cases h with
  | @caller n d d' p p' events hat h =>
    have hv' : ∀ q ∈ d.workers,
        q.Vetted d'.gate.seen (tr.asked ++ events.filterMap Event.asked?) :=
      fun q hq => (hv q hq).mono hs (List.subset_append_left _ _)
    have hw := h.forall_workers (P := Position.Vetted _ _) trivial hv'
    exact hw
  | @worker n d d' p p' events hat h =>
    rw [h.told.asked]
    have hv' : ∀ q ∈ d.workers, q.Vetted d'.gate.seen (tr.asked ++ p.asks) :=
      fun q hq => (hv q hq).mono hs (List.subset_append_left _ _)
    have hp := h.vetted (hv p (List.mem_of_getElem? hat)) ha
    exact h.forall_workers hz hat hv' hp

/-- What is recorded has passed the gate. -/
theorem Moves.recorded_seen (hv : ∀ p ∈ d.workers, p.Vetted d.gate.seen tr.asked)
    (h : Moves b t d d' events) :
    ∀ e ∈ events.filterMap Event.recorded?, e.1.order.id ∈ d.gate.seen := by
  intro e he
  cases h with
  | caller hat h => rw [h.frame.recorded] at he; cases he
  | @worker n d d' p p' events hat h =>
    rw [h.told.recorded] at he
    have hp := hv p (List.mem_of_getElem? hat)
    cases p with
    | recording item s => rw [List.mem_singleton.mp he]; exact hp
    | _ => cases he

/-- The broker has to do only with items that it was asked for. -/
theorem Moves.brokered (hv : ∀ p ∈ d.workers, p.Vetted d.gate.seen tr.asked)
    (h : Moves b t d d' events) :
    ∀ i ∈ events.filterMap Event.brokered?, i ∈ tr.asked ++ events.filterMap Event.asked? := by
  intro i hi
  cases h with
  | caller hat h => rw [h.frame.brokered] at hi; cases hi
  | worker hat h =>
    rw [h.told.asked]
    exact mem_asked_of_atBroker (hv _ (List.mem_of_getElem? hat)) i (h.told.brokered hi)

/-! ## The invariant -/

/-- Each name that the gate has seen belongs to one item, and no other item of that name comes
before the broker. -/
structure Naming (d : Desk β) (tr : Trace) : Prop where
  asleep : d.Asleep
  seen : (↑d.gate.seen : Multiset OrderId) =
    overWorkers Position.admitted d + ↑(originalNames tr.recorded)
  nodup : d.gate.seen.Nodup
  vetted : ∀ p ∈ d.workers, p.Vetted d.gate.seen tr.asked
  recorded : ∀ e ∈ tr.recorded, e.1.order.id ∈ d.gate.seen
  asked : ↑(tr.asked.map fun i => i.order.id) + overWorkers Position.unasked d ≤
    (↑d.gate.seen : Multiset OrderId)
  brokered : ∀ i ∈ tr.brokered, i ∈ tr.asked

namespace Naming

theorem start (settings : Settings) (s : β) (register : Register) (programs : List (List Call)) :
    Naming ((closed settings s register).withCallers programs) [] where
  asleep _ := rfl
  seen := rfl
  nodup := List.nodup_nil
  vetted _ h := by cases h
  recorded _ h := by cases h
  asked := le_refl _
  brokered _ h := by cases h

theorem clock (now : Int64) (hn : Naming d tr) : Naming { d with now := now } tr :=
  ⟨hn.asleep, hn.seen, hn.nodup, hn.vetted, hn.recorded, hn.asked, hn.brokered⟩

/-- Whatever the broker was asked for has passed the gate. -/
theorem mem_seen (hn : Naming d tr) : ∀ i ∈ tr.asked, i.order.id ∈ d.gate.seen := by
  intro i hi
  have hi : i.order.id ∈ (↑(tr.asked.map fun i => i.order.id) : Multiset OrderId) :=
    Multiset.mem_coe.2 (List.mem_map_of_mem hi)
  exact Multiset.mem_of_le ((Multiset.le_add_right _ _).trans hn.asked) hi

theorem step (hn : Naming d tr) (h : Moves b t d d' events) :
    Naming d' (tr ++ Trace.ofStep t events) where
  asleep := h.asleep hn.asleep
  seen := by
    have hb := h.admitted_add hn.asleep
    rw [Trace.recorded, Trace.pick_step, originalNames_append, ← Multiset.coe_add]
    rw [hn.seen] at hb
    apply add_left_cancel (a := overWorkers Position.admitted d)
    calc overWorkers Position.admitted d + ↑d'.gate.seen
        = ↑d'.gate.seen + overWorkers Position.admitted d + 0 := by ac_rfl
      _ = overWorkers Position.admitted d + ↑(originalNames tr.recorded) +
          overWorkers Position.admitted d' + ↑(originalNames (events.filterMap Event.recorded?)) :=
        hb
      _ = _ := by rw [Trace.recorded]; ac_rfl
  nodup := h.seen_nodup hn.nodup
  vetted := by
    rw [Trace.asked, Trace.pick_step]
    exact h.vetted hn.asleep hn.vetted hn.mem_seen
  recorded := by
    intro e he
    rw [Trace.recorded, Trace.pick_step] at he
    rcases List.mem_append.1 he with he | he
    · exact h.seen_subset (hn.recorded e he)
    · exact h.seen_subset (h.recorded_seen hn.vetted e he)
  asked := by
    rw [Trace.asked, Trace.pick_step, List.map_append, ← Multiset.coe_add]
    exact h.unasked_le hn.asleep hn.asked
  brokered := by
    intro i hi
    rw [Trace.brokered, Trace.pick_step] at hi
    rw [Trace.asked, Trace.pick_step]
    rcases List.mem_append.1 hi with hi | hi
    · exact List.mem_append_left _ (hn.brokered i hi)
    · exact h.brokered hn.vetted i hi

/-- **No name has two originals.** -/
theorem originals_nodup (hn : Naming d tr) : (originalNames tr.recorded).Nodup := by
  have hle : (↑(originalNames tr.recorded) : Multiset OrderId) ≤ ↑d.gate.seen := by
    rw [hn.seen]
    exact Multiset.le_add_left _ _
  exact Multiset.coe_nodup.1 (Multiset.nodup_of_le hle (Multiset.coe_nodup.2 hn.nodup))

/-- The broker is asked once for a name. -/
theorem asked_nodup (hn : Naming d tr) : (tr.asked.map fun i => i.order.id).Nodup :=
  Multiset.coe_nodup.1 (Multiset.nodup_of_le ((Multiset.le_add_right _ _).trans hn.asked)
    (Multiset.coe_nodup.2 hn.nodup))

/-- The broker has to do with one item of a name. -/
theorem brokered_eq (hn : Naming d tr) {i j : Item} (hi : i ∈ tr.brokered) (hj : j ∈ tr.brokered)
    (h : i.order.id = j.order.id) : i = j :=
  List.inj_on_of_nodup_map hn.asked_nodup (hn.brokered i hi) (hn.brokered j hj) h

/-- A name of which all accepted items are recorded has an original, once it has a record. -/
theorem mem_originals (hn : Naming d tr) (hc : Custody d tr) {id : OrderId}
    (hid : id ∈ tr.recorded.map fun e => e.1.order.id)
    (hall : tr.recorded.countP (fun e => e.1.order.id = id) =
      tr.accepted.countP fun i => i.order.id = id) : id ∈ originalNames tr.recorded := by
  obtain ⟨e, he, rfl⟩ := List.mem_map.1 hid
  have hs : e.1.order.id ∈ (↑d.gate.seen : Multiset OrderId) := hn.recorded e he
  rw [hn.seen, Multiset.mem_add] at hs
  rcases hs with hs | hs
  · -- an item in hand would be accepted beyond those recorded
    obtain ⟨p, hp, hs⟩ := mem_overWorkers.1 hs
    obtain ⟨i, hi, hid⟩ := Multiset.mem_map.1 (Multiset.mem_of_le p.admitted_le hs)
    have hpos : 0 < (overWorkers Position.unrecorded d).countP
        fun i => i.order.id = e.1.order.id :=
      Multiset.countP_pos.2 ⟨i, mem_overWorkers.2 ⟨p, hp, hi⟩, hid⟩
    have hcount := congrArg (Multiset.countP fun i => i.order.id = e.1.order.id) hc.items
    rw [Multiset.countP_add, Multiset.countP_add, Multiset.coe_countP, Multiset.coe_countP,
      Multiset.coe_countP, List.countP_map] at hcount
    have : tr.recorded.countP (fun e' => e'.1.order.id = e.1.order.id) =
      tr.recorded.countP ((fun i : Item => decide (i.order.id = e.1.order.id)) ∘ Prod.fst) := rfl
    omega
  · exact hs

end Naming

/-! ## Names that are not shared -/

/-- The gate has seen only names of accepted items, those that it is yet to see left out. -/
theorem Custody.seen_add_le (hc : Custody d tr) (hn : Naming d tr) :
    ↑d.gate.seen + overWorkers Position.unvetted d ≤
      (↑(tr.accepted.map fun i => i.order.id) : Multiset OrderId) := by
  have hhand : overWorkers Position.admitted d + overWorkers Position.unvetted d ≤
      (overWorkers Position.unrecorded d).map fun i => i.order.id := by
    rw [← overWorkers_add, ← overWorkers_map]
    exact overWorkers_mono Position.admitted_add_unvetted_le
  have hrec : (↑(originalNames tr.recorded) : Multiset OrderId) ≤
      ↑((tr.recorded.map Prod.fst).map fun i => i.order.id) := by
    rw [List.map_map]
    exact Multiset.coe_le.2 (List.filter_sublist.map _).subperm
  have hitems := congrArg (Multiset.map fun i => i.order.id) hc.items
  rw [Multiset.map_add, Multiset.map_add, Multiset.map_coe, Multiset.map_coe,
    Multiset.map_coe] at hitems
  rw [hn.seen, hitems, add_right_comm]
  exact add_le_add (hhand.trans (Multiset.le_add_left _ _)) hrec

/-- **A name that one accepted item has is new to the gate when the item is shown to it.** -/
theorem Custody.unseen (hc : Custody d tr) (hn : Naming d tr)
    (hids : (tr.accepted.map fun i => i.order.id).Nodup) (hp : p ∈ d.workers) {id : OrderId}
    (hid : id ∈ p.unvetted) : id ∉ d.gate.seen := by
  intro hseen
  have hmem : id ∈ overWorkers Position.unvetted d := mem_overWorkers.2 ⟨p, hp, hid⟩
  have hnodup := Multiset.nodup_of_le (hc.seen_add_le hn) (Multiset.coe_nodup.2 hids)
  exact Multiset.disjoint_left.1 (Multiset.nodup_add.1 hnodup).2.2 hseen hmem

/-- A name that is to be asked for was not asked for before. -/
theorem Naming.not_asked (hn : Naming d tr) (hp : p ∈ d.workers) {id : OrderId}
    (hid : id ∈ p.unasked) : id ∉ tr.asked.map fun i => i.order.id := by
  intro hasked
  have hmem : id ∈ overWorkers Position.unasked d := mem_overWorkers.2 ⟨p, hp, hid⟩
  have hnodup := Multiset.nodup_of_le hn.asked (Multiset.coe_nodup.2 hn.nodup)
  exact Multiset.disjoint_left.1 (Multiset.nodup_add.1 hnodup).2.2 hasked hmem

/-- **No two workers hold admitted items of one name.** -/
theorem Naming.apart (hn : Naming d tr) (hat : d.workers[n]? = some p)
    (hm : d.workers[m]? = some q) (hne : m ≠ n) {id : OrderId} (hp : id ∈ p.admitted) :
    id ∉ q.admitted := by
  have hle : overWorkers Position.admitted d ≤ ↑d.gate.seen := by
    rw [hn.seen]
    exact Multiset.le_add_right _ _
  have hnodup := Multiset.nodup_of_le ((add_le_overWorkers hat hm hne rfl).trans hle)
    (Multiset.coe_nodup.2 hn.nodup)
  exact Multiset.disjoint_left.1 (Multiset.nodup_add.1 hnodup).2.2 hp

/-- **No original on record has the name of an admitted item in hand.** -/
theorem Naming.not_original (hn : Naming d tr) (hp : p ∈ d.workers) {id : OrderId}
    (hid : id ∈ p.admitted) : id ∉ originalNames tr.recorded := by
  intro hrecorded
  have hnodup := Multiset.coe_nodup.2 hn.nodup
  rw [hn.seen] at hnodup
  exact Multiset.disjoint_left.1 (Multiset.nodup_add.1 hnodup).2.2
    (mem_overWorkers.2 ⟨p, hp, hid⟩) (Multiset.mem_coe.2 hrecorded)

/-- **Naming after every run.** -/
theorem follow_naming {settings : Settings} {s : β} {register : Register}
    {programs : List (List Call)} {schedule : List Turn} {d₀ : Desk β}
    (hopen : open? settings s register = .ok d₀)
    (hrun : (d₀.withCallers programs).follow b schedule = some (d, tr)) : Naming d tr := by
  obtain ⟨rfl, -⟩ := open?_eq hopen
  exact follow_invariant (P := Naming) Naming.clock Naming.step
    (Naming.start settings s register programs) hrun

end Desk

end DealDesk
