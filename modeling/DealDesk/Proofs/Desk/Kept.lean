import DealDesk.Broker.Scripted
import DealDesk.Proofs.Desk.Names

/-!
# What the register of a desk holds

* `Custody.fresh` — no record of a desk replaces another.
* `Custody.find?_iff`, `Custody.all_perm`, `Custody.size_eq` — so the register holds every record.

`original_is_final` is the main result: of all items of a name one is settled on its merits, the
others as its repetitions, and what is recorded for the one stays.
-/

namespace DealDesk

namespace Desk

variable {β : Type} {b : Broker β} {d : Desk β} {tr : Trace}

/-! ## No record replaces another -/

/-- The originals among settlements carry the names of their items. -/
theorem originalNames_eq (hs : ∀ e ∈ tr.recorded, Settles e.1 e.2) :
    (Register.originals tr.settlements).map (·.orderId) = originalNames tr.recorded := by
  rw [Register.originals, Trace.settlements, List.filter_map, List.map_map, originalNames]
  apply List.map_congr_left
  intro e he
  exact (hs e (List.mem_of_mem_filter he)).orderId

theorem Custody.fresh (hc : Custody d tr) (hn : Naming d tr) : Register.Fresh tr.settlements := by
  rw [Register.Fresh, originalNames_eq hc.settles]
  exact hn.originals_nodup

theorem Custody.find?_iff (hc : Custody d tr) (hn : Naming d tr) {id : OrderId} {s : Settlement} :
    d.register.find? id = some s ↔ s ∈ Register.originals tr.settlements ∧ s.orderId = id := by
  rw [hc.register]
  exact Register.find?_fresh_iff (hc.fresh hn)

/-- **An original on record is found under the name of its item.** -/
theorem Custody.find?_original (hc : Custody d tr) (hn : Naming d tr) {e : Item × Settlement}
    (he : e ∈ tr.recorded) (ho : e.2.status ≠ .duplicate) :
    d.register.find? e.1.order.id = some e.2 := by
  refine (hc.find?_iff hn).2 ⟨List.mem_filter.2 ⟨?_, Settlement.isOriginal_iff.2 ho⟩, ?_⟩
  · exact List.mem_map_of_mem he
  · exact (hc.settles e he).orderId

theorem Custody.all_perm (hc : Custody d tr) (hn : Naming d tr) :
    d.register.all.Perm tr.settlements := by
  rw [hc.register]
  exact Register.all_perm (hc.fresh hn)

theorem Custody.size_eq (hc : Custody d tr) (hn : Naming d tr) :
    d.register.size = tr.recorded.length := by
  rw [hc.register]
  exact (Register.size_fresh (hc.fresh hn)).trans (List.length_map _)

/-! ## Once everything is recorded -/

/-- The records are those of the accepted items once there are as many. -/
theorem Custody.recorded_perm_of_length (hc : Custody d tr)
    (hall : tr.recorded.length = tr.accepted.length) :
    (tr.recorded.map Prod.fst).Perm tr.accepted := by
  apply Multiset.coe_eq_coe.1
  refine Multiset.eq_of_le_of_card_le ?_ ?_
  · rw [hc.items]
    exact Multiset.le_add_left _ _
  · rw [Multiset.coe_card, Multiset.coe_card, List.length_map, hall]

/-- Nothing waits and nothing is in a worker's hands once all that was accepted is recorded. -/
theorem Custody.unrecorded_eq_zero (hc : Custody d tr)
    (hall : tr.recorded.length = tr.accepted.length) :
    overWorkers Position.unrecorded d = 0 := by
  have hcard := congrArg Multiset.card hc.items
  rw [Multiset.card_add, Multiset.card_add, Multiset.coe_card, Multiset.coe_card, Multiset.coe_card,
    List.length_map] at hcard
  exact Multiset.card_eq_zero.1 (by omega)

/-! ## One original for a name -/

theorem count_originalNames (records : List (Item × Settlement)) (id : OrderId) :
    (originalNames records).count id =
      records.countP fun e => e.1.order.id = id ∧ e.2.status ≠ .duplicate := by
  rw [originalNames, List.count, List.countP_map, List.countP_filter]
  apply List.countP_congr
  intro e he
  simp [Settlement.isOriginal]

/-- Records of a name are originals or repetitions. -/
theorem countP_named (records : List (Item × Settlement)) (id : OrderId) :
    records.countP (fun e => e.1.order.id = id) =
      records.countP (fun e => e.1.order.id = id ∧ e.2.status ≠ .duplicate) +
        records.countP fun e => e.1.order.id = id ∧ e.2.status = .duplicate := by
  rw [List.countP_eq_countP_filter_add records _ fun e => e.2.status ≠ .duplicate,
    List.countP_filter, List.countP_filter]
  congr 1 <;>
  · apply List.countP_congr
    intro e he
    simp

/-- **Once every accepted item of a name is recorded, one of them is an original.** -/
theorem Naming.count_original (hn : Naming d tr) (hc : Custody d tr) {id : OrderId}
    (hk : 1 ≤ tr.accepted.countP fun i => i.order.id = id)
    (hall : tr.recorded.countP (fun e => e.1.order.id = id) =
      tr.accepted.countP fun i => i.order.id = id) :
    tr.recorded.countP (fun e => e.1.order.id = id ∧ e.2.status ≠ .duplicate) = 1 := by
  rw [← count_originalNames]
  obtain ⟨e, he, hid⟩ := List.countP_pos_iff.1 (hk.trans hall.symm.le)
  have hmem : id ∈ tr.recorded.map fun e => e.1.order.id :=
    List.mem_map.2 ⟨e, he, by simpa using hid⟩
  exact List.count_eq_one_of_mem hn.originals_nodup (hn.mem_originals hc hmem hall)

/-- The broker is asked for at most one item of a name. -/
theorem Naming.count_asked_le (hn : Naming d tr) (id : OrderId) :
    tr.asked.countP (fun i => i.order.id = id) ≤ 1 := by
  have h := List.nodup_iff_count_le_one.1 hn.asked_nodup id
  rw [List.count, List.countP_map] at h
  refine (le_of_eq (List.countP_congr ?_)).trans h
  intro i hi
  simp

/-- **An original is settled once, and its settlement stays.** Of the items accepted under a name,
one is settled as an original and the others as repetitions, once all are recorded; the broker has
to do with one of them only; and from its record on, at the time of its callback in particular, the
original is what the register finds under the name. -/
theorem original_is_final {settings : Settings} {s : β} {programs : List (List Call)}
    {schedule later : List Turn} {d₀ d' : Desk β} {tr' : Trace} (id : OrderId)
    (hopen : open? settings s Register.empty = .ok d₀)
    (hrun : (d₀.withCallers programs).follow b schedule = some (d, tr))
    (hlater : d.follow b later = some (d', tr'))
    (hk : 1 ≤ tr.accepted.countP fun i => i.order.id = id) :
    (tr.recorded.countP (fun e => e.1.order.id = id) =
        tr.accepted.countP (fun i => i.order.id = id) →
      tr.recorded.countP (fun e => e.1.order.id = id ∧ e.2.status ≠ .duplicate) = 1 ∧
      tr.recorded.countP (fun e => e.1.order.id = id ∧ e.2.status = .duplicate) =
        tr.accepted.countP (fun i => i.order.id = id) - 1) ∧
    (tr.asked.countP (fun i => i.order.id = id) ≤ 1 ∧
      ∀ i ∈ tr.brokered, ∀ j ∈ tr.brokered, i.order.id = id → j.order.id = id → i = j) ∧
    ∀ item s, item.order.id = id → s.status ≠ .duplicate →
      (item, s) ∈ tr.recorded ∨ (∃ p, .notifying item s p ∈ d.workers) →
      d'.register.find? id = some s := by
  have hc := follow_custody hopen hrun
  have hn := follow_naming hopen hrun
  refine ⟨fun hall => ?_, ⟨hn.count_asked_le id, ?_⟩, ?_⟩
  · have hone := hn.count_original hc hk hall
    refine ⟨hone, ?_⟩
    rw [← hall, countP_named tr.recorded id, hone, Nat.add_sub_cancel_left]
  · rintro i hi j hj rfl hij
    exact hn.brokered_eq hi hj hij.symm
  · rintro item s rfl hs hrec
    have hrec : (item, s) ∈ tr.recorded := by
      rcases hrec with hrec | ⟨p, hp⟩
      · exact hrec
      · exact hc.onRecord _ hp
    have hrun' := follow_append hrun hlater
    have he : (item, s) ∈ (tr ++ tr').recorded := by
      rw [Trace.recorded, Trace.pick_append]
      exact List.mem_append_left _ hrec
    exact (follow_custody hopen hrun').find?_original (follow_naming hopen hrun') he hs

/-! ## A name that is submitted twice -/

/-- An order that the standard symbol allows. -/
def plainOrder (id : String) : Order :=
  { id := ⟨id⟩, client := ⟨"c-1"⟩, side := .buy, symbol := "EURUSD", volume := 1, stopLoss := none
    takeProfit := none, submittedAt := 0 }

def timeout : Failure := { kind := .connection, disposition := .transient, reason := "Timeout" }

/-- A broker that lists the standard symbol and loses its connection once. -/
def lossy : Scripted := (Scripted.empty.withSymbol Scripted.standardSymbol).withScript [timeout]

def twoWorkers : Settings := { Settings.standard with workers := 2 }

/-- So many turns of one thread, all at the same time of day. -/
def turns (t : Thread) (n : Nat) : List Turn := List.replicate n ⟨t, 0⟩

/-- The second item passes the gate before the first one, which is recorded as its repetition while
the second is still to be executed. -/
def submittedTwice : Option (Desk Scripted × Trace) :=
  ((closed twoWorkers lossy Register.empty).withCallers
    [[.start, .submit (plainOrder "r-1") none, .submit (plainOrder "r-1") none]]).follow
      Scripted.broker (turns (.caller 0) 7 ++ turns (.worker 0) 2 ++ turns (.worker 1) 3 ++
        turns (.worker 0) 2 ++ turns (.worker 1) 6)

theorem original_is_final_submittedTwice : ∃ d, ∃ tr : Trace, submittedTwice = some (d, tr) ∧
    tr.recorded.countP (fun e => e.1.order.id = ⟨"r-1"⟩ ∧ e.2.status ≠ .duplicate) = 1 ∧
    tr.recorded.countP (fun e => e.1.order.id = ⟨"r-1"⟩ ∧ e.2.status = .duplicate) = 2 - 1 := by
  have hcounts : submittedTwice.map (fun r =>
      (Trace.accepted r.2 |>.countP fun i => i.order.id = ⟨"r-1"⟩,
       Trace.recorded r.2 |>.countP fun e => e.1.order.id = ⟨"r-1"⟩)) = some (2, 2) := by
    decide +kernel
  obtain ⟨⟨d, tr⟩, hrun, hcounts⟩ := Option.map_eq_some_iff.1 hcounts
  obtain ⟨haccepted, hrecorded⟩ := Prod.mk.inj hcounts
  have hopen : open? twoWorkers lossy Register.empty =
    .ok (closed twoWorkers lossy Register.empty) := rfl
  have hlater : d.follow Scripted.broker [] = some (d, []) := rfl
  have hk : 1 ≤ tr.accepted.countP fun i => i.order.id = ⟨"r-1"⟩ := by rw [haccepted]; decide
  have h := original_is_final ⟨"r-1"⟩ hopen hrun hlater hk
  exact ⟨d, tr, hrun, haccepted ▸ h.1 (hrecorded.trans haccepted.symm)⟩

end Desk

end DealDesk
