import DealDesk.Register
import DealDesk.Proofs.Register.Gather

/-!
# Histories in which no order is settled twice

* `Settlement.isOriginal` — a settlement that is no refusal of a name seen before.
* `Register.Fresh` — a history whose originals have different names; so no record replaces another.
* `ofHistory_fresh` — the register of such a history, and from it the answers to its questions:
  `find?_fresh_iff`, `entriesOf_fresh`, `all_perm`, `size_fresh`.
-/

namespace DealDesk

/-- Is an order recorded under its own name, and not as a repetition? -/
def Settlement.isOriginal (s : Settlement) : Bool := s.status ≠ .duplicate

theorem Settlement.isOriginal_iff {s : Settlement} :
    s.isOriginal = true ↔ s.status ≠ .duplicate := by
  simp [isOriginal]

namespace Register

def originals (history : List Settlement) : List Settlement :=
  history.filter Settlement.isOriginal

def repeats (history : List Settlement) : List Settlement :=
  history.filter fun s => !s.isOriginal

/-- No two originals share a name. -/
def Fresh (history : List Settlement) : Prop := ((originals history).map (·.orderId)).Nodup

theorem originals_perm_repeats (history : List Settlement) :
    (originals history ++ repeats history).Perm history :=
  List.filter_append_perm Settlement.isOriginal history

theorem Fresh.perm {l l' : List Settlement} (hf : Fresh l) (h : l.Perm l') : Fresh l' :=
  ((h.filter _).map _).nodup_iff.1 hf

/-! ## Recording -/

/-- The next sequence number plays no part in recording. -/
theorem record_withNext (r : Register) (n : UInt64) (s : Settlement) :
    record { r with nextSequence := n } s = { record r s with nextSequence := n } := by
  unfold record
  split
  · rfl
  · dsimp only
    split
    · rfl
    · split <;> rfl

theorem foldl_record_withNext (l : List Settlement) (r : Register) (n : UInt64) :
    l.foldl record { r with nextSequence := n } = { l.foldl record r with nextSequence := n } := by
  induction l generalizing r with
  | nil => rfl
  | cons s l ih => rw [List.foldl_cons, record_withNext, ih, List.foldl_cons]

theorem ofHistory_append (l l' : List Settlement) :
    ofHistory (l ++ l') = l'.foldl record (ofHistory l) :=
  List.foldl_append

theorem record_nextSequence (r : Register) (s : Settlement) :
    (r.record s).nextSequence = r.nextSequence := by
  have h := congrArg nextSequence (record_withNext r r.nextSequence s)
  exact h

variable {history : List Settlement}

/-! ## The register of such a history -/

/-- **Originals are kept in order; both indexes gather.** -/
theorem ofHistory_fresh (hf : Fresh history) :
    ofHistory history =
      { results := (originals history).map fun s => (s.orderId, s)
        index := Table.gather (·.client) (·.orderId) (originals history)
        duplicates := Table.gather (·.client) id (repeats history)
        nextSequence := 0 } := by
  induction history using List.reverseRecOn with
  | nil => rfl
  | append_singleton l s ih =>
    have hl : Fresh l := by
      refine List.Nodup.sublist (List.Sublist.map _ ?_) hf
      exact (List.sublist_append_left l [s]).filter _
    rw [ofHistory, List.foldl_append, ← ofHistory, ih hl, List.foldl_cons, List.foldl_nil]
    by_cases hs : s.status = .duplicate
    · have ho : originals (l ++ [s]) = originals l := by
        simp [originals, Settlement.isOriginal, hs]
      have hr : repeats (l ++ [s]) = repeats l ++ [s] := by
        simp [repeats, Settlement.isOriginal, hs]
      rw [record, if_pos hs, ho, hr, Table.gather_concat]
      rfl
    · have ho : originals (l ++ [s]) = originals l ++ [s] := by
        simp [originals, Settlement.isOriginal, hs]
      have hr : repeats (l ++ [s]) = repeats l := by
        simp [repeats, Settlement.isOriginal, hs]
      have hnew : s.orderId ∉ Table.keys ((originals l).map fun s => (s.orderId, s)) := by
        intro hm
        rw [Fresh, ho, List.map_append, List.nodup_append] at hf
        simp only [Table.keys, List.map_map] at hm
        exact hf.2.2 _ hm _ (List.mem_singleton.2 rfl) rfl
      rw [record, if_neg hs, ho, hr, Table.gather_concat]
      dsimp only
      rw [Table.get?_eq_none hnew, Table.put_of_not_mem _ hnew, List.map_append]
      rfl

/-! ## Its answers -/

/-- **What is found under a name is its original.** -/
theorem find?_fresh_iff (hf : Fresh history) {id : OrderId} {s : Settlement} :
    (ofHistory history).find? id = some s ↔ s ∈ originals history ∧ s.orderId = id := by
  rw [ofHistory_fresh hf]
  exact Table.get?_map_iff hf

theorem entriesOf_fresh (hf : Fresh history) (c : ClientId) :
    (ofHistory history).entriesOf c =
      (originals history).filter (·.client = c) ++ (repeats history).filter (·.client = c) := by
  have hids : ∀ l : List Settlement, (∀ s ∈ l, (ofHistory history).find? s.orderId = some s) →
      (l.map (·.orderId)).filterMap (ofHistory history).find? = l := by
    intro l hl
    induction l with
    | nil => rfl
    | cons s l ih =>
      rw [List.map_cons, List.filterMap_cons_some (hl s List.mem_cons_self),
        ih fun s hs => hl s (List.mem_cons_of_mem _ hs)]
  have hindex : ((ofHistory history).index.get? c).getD [] =
      ((originals history).filter (·.client = c)).map (·.orderId) := by
    rw [ofHistory_fresh hf]
    exact Table.getD_gather _ _
  have hdup : ((ofHistory history).duplicates.get? c).getD [] =
      (repeats history).filter (·.client = c) := by
    rw [ofHistory_fresh hf]
    exact (Table.getD_gather _ _).trans (List.map_id _)
  rw [entriesOf, hindex, hdup,
    hids _ fun s hs => (find?_fresh_iff hf).2 ⟨List.mem_of_mem_filter hs, rfl⟩]

/-- A client's entries are its part of the history. -/
theorem entriesOf_perm (hf : Fresh history) (c : ClientId) :
    ((ofHistory history).entriesOf c).Perm (history.filter (·.client = c)) := by
  rw [entriesOf_fresh hf, ← List.filter_append]
  exact (originals_perm_repeats history).filter _

theorem values_fresh (hf : Fresh history) :
    (ofHistory history).results.values = originals history := by
  rw [ofHistory_fresh hf, Table.values, List.map_map]
  exact List.map_id _

theorem duplicates_perm (hf : Fresh history) :
    (ofHistory history).duplicates.values.flatten.Perm (repeats history) := by
  rw [ofHistory_fresh hf]
  exact (Table.flatten_gather _).trans (List.Perm.of_eq (List.map_id _))

/-- **Every record is kept, and nothing else.** -/
theorem entries_perm (hf : Fresh history) : (ofHistory history).entries.Perm history := by
  rw [entries, values_fresh hf]
  exact ((duplicates_perm hf).append_left _).trans (originals_perm_repeats history)

theorem all_perm (hf : Fresh history) : (ofHistory history).all.Perm history :=
  (List.mergeSort_perm _ _).trans (entries_perm hf)

theorem size_eq_entries (r : Register) : r.size = r.entries.length := by
  simp [size, entries, Table.values, List.length_flatten]

theorem size_fresh (hf : Fresh history) : (ofHistory history).size = history.length := by
  rw [size_eq_entries, (entries_perm hf).length_eq]

/-- A client is listed once it has a record. -/
theorem mem_keys_fresh (hf : Fresh history) {c : ClientId} :
    c ∈ (ofHistory history).index.keys ++ (ofHistory history).duplicates.keys ↔
      ∃ s ∈ history, s.client = c := by
  rw [ofHistory_fresh hf, List.mem_append, Table.mem_keys_gather, Table.mem_keys_gather]
  constructor
  · rintro (⟨s, hs, hc⟩ | ⟨s, hs, hc⟩)
    · exact ⟨s, List.mem_of_mem_filter hs, hc⟩
    · exact ⟨s, List.mem_of_mem_filter hs, hc⟩
  · rintro ⟨s, hs, hc⟩
    rcases List.mem_append.1 ((originals_perm_repeats history).mem_iff.2 hs) with h | h
    · exact .inl ⟨s, h, hc⟩
    · exact .inr ⟨s, h, hc⟩

/-- A ticket is listed under the name of its settlement, with its price. -/
theorem ticketRow_eq_some_iff {s : Settlement} {row : TicketRow} : ticketRow s = some row ↔
    row.orderId = s.orderId ∧ s.ticket = some row.ticket ∧ s.price = some row.price := by
  unfold ticketRow
  split
  · rename_i ticket price hticket hprice
    rw [hticket, hprice]
    constructor
    · rintro ⟨⟩
      exact ⟨rfl, rfl, rfl⟩
    · obtain ⟨id, _, _⟩ := row
      rintro ⟨rfl, ⟨⟩, ⟨⟩⟩
      rfl
  · rename_i hnone
    exact ⟨nofun, fun h => (hnone _ _ h.2.1 h.2.2).elim⟩

theorem sublist_ticketRow (l : List Settlement) :
    ((l.filterMap ticketRow).map (·.orderId)).Sublist (l.map (·.orderId)) := by
  induction l with
  | nil => exact List.Sublist.refl _
  | cons s l ih =>
    rw [List.filterMap_cons, List.map_cons]
    cases hrow : ticketRow s with
    | none => exact ih.cons _
    | some row =>
      rw [List.map_cons, (ticketRow_eq_some_iff.1 hrow).1]
      exact ih.cons_cons _

end Register

end DealDesk
