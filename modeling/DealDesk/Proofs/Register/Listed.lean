import DealDesk.Proofs.Register.Accounts
import DealDesk.Proofs.Register.Arrival

/-!
# Which clients are listed

* `keys_unlist` — a client that loses a name keeps its row of the index.
* `Rows` — the clients that have a row are those whom a record has named.
* `LeftEmpty` — every name that a client's records brought it has gone to others since.

`listed_once_named` is the main result: a client is listed from its first record on. The list says
more than it should of a client that is left empty, and of no other:
`listed_with_nothing_left` has one.
-/

namespace DealDesk

namespace Register

variable {history : List Settlement} {s : Settlement} {c : ClientId} {id : OrderId}

/-! ## Rows -/

/-- Taking a name away leaves the row of the client. -/
theorem keys_unlist (index : Table ClientId (List OrderId)) (c : ClientId) (id : OrderId) :
    (unlist index c id).keys = index.keys := by
  unfold unlist
  split
  · rename_i ids h
    have hmem : c ∈ index.keys := by
      by_contra hc
      rw [Table.get?_eq_none hc] at h
      cases h
    rw [Table.keys_put, if_pos hmem]
  · rfl

theorem mem_keys_list {index : Table ClientId (List OrderId)} {c' : ClientId} :
    c' ∈ (list index c id).keys ↔ c' ∈ index.keys ∨ c' = c :=
  Table.mem_keys_put

/-- A client has a row once a record has named it: of the index for an original, of the table of
repetitions for a repetition. -/
structure Rows (history : List Settlement) (r : Register) : Prop where
  index : ∀ c, c ∈ r.index.keys ↔ ∃ s ∈ originals history, s.client = c
  duplicates : ∀ c, c ∈ r.duplicates.keys ↔ ∃ s ∈ repeats history, s.client = c

/-- A client named by the last record is added to those named before. -/
theorem named_concat (l : List Settlement) (s : Settlement) (c : ClientId) :
    (∃ s' ∈ l ++ [s], s'.client = c) ↔ (∃ s' ∈ l, s'.client = c) ∨ c = s.client := by
  simp only [List.mem_append, List.mem_singleton, or_and_right, exists_or, exists_eq_left]
  exact or_congr_right eq_comm

namespace Rows

variable {r : Register}

theorem record_of_repeat (h : Rows history r) (hs : s.status = .duplicate) :
    Rows (history ++ [s]) (r.record s) := by
  rw [record_repeat r hs]
  refine ⟨fun c => ?_, fun c => ?_⟩
  · rw [originals_append, originals_singleton, if_pos hs, List.append_nil]
    exact h.index c
  · rw [repeats_append, repeats_singleton, if_pos hs, named_concat, ← h.duplicates]
    exact Table.mem_keys_put

/-- An original names its client in the index. -/
theorem of_original (h : Rows history r) (hs : s.status ≠ .duplicate)
    {results : Table OrderId Settlement} {index : Table ClientId (List OrderId)}
    (hindex : ∀ c, c ∈ index.keys ↔ c ∈ r.index.keys ∨ c = s.client) :
    Rows (history ++ [s]) { r with results := results, index := index } := by
  refine ⟨fun c => ?_, fun c => ?_⟩
  · rw [originals_append, originals_singleton, if_neg hs, named_concat, ← h.index]
    exact hindex c
  · rw [repeats_append, repeats_singleton, if_neg hs, List.append_nil]
    exact h.duplicates c

theorem record (h : Rows history r) (hlog : Logged history r) (s : Settlement) :
    Rows (history ++ [s]) (r.record s) := by
  by_cases hs : s.status = .duplicate
  · exact h.record_of_repeat hs
  · cases hf : r.find? s.orderId with
    | none =>
      rw [record_new hs hf]
      exact h.of_original hs fun c => mem_keys_list
    | some previous =>
      by_cases hp : previous.client = s.client
      · -- the index stays as it is, and the record before this one has named the client
        rw [hlog.find?] at hf
        have hprevious : previous ∈ originals history :=
          List.mem_of_mem_filter (List.mem_of_getLast? hf)
        have hrow : s.client ∈ r.index.keys := (h.index _).2 ⟨previous, hprevious, hp⟩
        rw [record_again hs ((hlog.find? _).trans hf) hp]
        exact h.of_original hs fun c => ⟨.inl, fun hc => hc.elim id fun he => he ▸ hrow⟩
      · rw [record_moved hs hf hp]
        refine h.of_original hs fun c => ?_
        rw [mem_keys_list, keys_unlist]

end Rows

theorem ofHistory_rows (history : List Settlement) : Rows history (ofHistory history) := by
  induction history using List.reverseRecOn with
  | nil => exact ⟨fun c => by simp [ofHistory, empty, originals, Table.keys],
      fun c => by simp [ofHistory, empty, repeats, Table.keys]⟩
  | append_singleton l s ih =>
    rw [ofHistory_append]
    exact ih.record (ofHistory_logged l) s

/-- **The clients listed are those whom a record has named.** -/
theorem mem_clients_iff_named : c ∈ (ofHistory history).clients ↔ ∃ s ∈ history, s.client = c := by
  have hperm := originals_perm_repeats history
  rw [mem_clients, List.mem_append, (ofHistory_rows history).index,
    (ofHistory_rows history).duplicates, ← exists_or]
  refine exists_congr fun s => ?_
  rw [← or_and_right, ← List.mem_append, hperm.mem_iff]

/-! ## Clients with nothing left -/

/-- Records have named the client, none of them a repetition, and whatever name they brought it has
gone to another client since. -/
structure LeftEmpty (history : List Settlement) (c : ClientId) : Prop where
  named : ∃ s ∈ history, s.client = c
  lost : ∀ s ∈ history, s.client = c → s.status ≠ .duplicate ∧ owner history s.orderId ≠ some c

/-- A client has entries if it holds a name or has a repetition. -/
theorem ofClient_ne_nil_iff : (ofHistory history).ofClient c ≠ [] ↔
    (∃ id, owner history id = some c) ∨ ∃ s ∈ repeats history, s.client = c := by
  constructor
  · intro h
    obtain ⟨s, hs⟩ := List.exists_mem_of_ne_nil _ h
    have hs : s ∈ (ofHistory history).entriesOf c := List.mem_mergeSort.1 hs
    rw [entriesOf_eq, List.mem_append] at hs
    rcases hs with hs | hs
    · obtain ⟨id, hid, -⟩ := List.mem_filterMap.1 hs
      exact .inl ⟨id, (mem_holdings history c id).1 hid⟩
    · obtain ⟨hs, hc⟩ := List.mem_filter.1 hs
      exact .inr ⟨s, hs, by simpa using hc⟩
  · intro h
    have hentry : ∃ s, s ∈ (ofHistory history).entriesOf c := by
      rw [entriesOf_eq]
      rcases h with ⟨id, hid⟩ | ⟨s, hs, hc⟩
      · obtain ⟨s, hs, -⟩ := Option.map_eq_some_iff.1 hid
        have hmem : id ∈ holdings history c := (mem_holdings history c id).2 hid
        exact ⟨s, List.mem_append_left _ (List.mem_filterMap.2 ⟨id, hmem, hs⟩)⟩
      · exact ⟨s, List.mem_append_right _ (List.mem_filter.2 ⟨hs, by simpa using hc⟩)⟩
    obtain ⟨s, hs⟩ := hentry
    exact List.ne_nil_of_mem (List.mem_mergeSort.2 hs)

/-- Only what a client has placed itself can be its own. -/
theorem named_of_owner (h : owner history id = some c) :
    ∃ s ∈ originals history, s.orderId = id ∧ s.client = c := by
  obtain ⟨s, hs, hc⟩ := Option.map_eq_some_iff.1 h
  exact ⟨s, List.mem_of_mem_filter (List.mem_of_getLast? hs), orderId_of_latest hs, hc⟩

/-- **Who is left empty is listed with nothing**, and nobody else is. -/
theorem leftEmpty_iff :
    LeftEmpty history c ↔ c ∈ (ofHistory history).clients ∧ (ofHistory history).ofClient c = [] := by
  rw [mem_clients_iff_named]
  constructor
  · intro h
    refine ⟨h.named, by_contra fun hne => ?_⟩
    rcases ofClient_ne_nil_iff.1 hne with ⟨id, hid⟩ | ⟨s, hs, hc⟩
    · obtain ⟨s, hs, rfl, hc⟩ := named_of_owner hid
      exact (h.lost s (List.mem_of_mem_filter hs) hc).2 hid
    · have hrepeat : s.status = .duplicate := by
        simpa [Settlement.isOriginal] using List.of_mem_filter hs
      exact (h.lost s (List.mem_of_mem_filter hs) hc).1 hrepeat
  · rintro ⟨hnamed, hnil⟩
    refine ⟨hnamed, fun s hs hc => ⟨fun hrepeat => ?_, fun hid => ?_⟩⟩
    · have hs : s ∈ repeats history :=
        List.mem_filter.2 ⟨hs, by simpa [Settlement.isOriginal] using hrepeat⟩
      exact ofClient_ne_nil_iff.2 (.inr ⟨s, hs, hc⟩) hnil
    · exact ofClient_ne_nil_iff.2 (.inl ⟨_, hid⟩) hnil

/-- **A client is listed from its first record on**, once and by name. So every client with
settlements is on the list. The list and the settlements disagree about a client that is left
empty, which is listed with no settlement and a total of zero, and about no other. -/
theorem listed_once_named (history : List Settlement) :
    (ofHistory history).clients.Pairwise (fun a b => a.text < b.text) ∧
    ∀ c, (c ∈ (ofHistory history).clients ↔ ∃ s ∈ history, s.client = c) ∧
      (0 < ((ofHistory history).statsOf c).total ↔ (ofHistory history).ofClient c ≠ []) ∧
      ((ofHistory history).ofClient c ≠ [] → c ∈ (ofHistory history).clients) ∧
      ((c ∈ (ofHistory history).clients ↔ (ofHistory history).ofClient c ≠ []) ↔
        ¬LeftEmpty history c) := by
  refine ⟨clients_sorted _, fun c => ?_⟩
  have hlisted : (ofHistory history).ofClient c ≠ [] → c ∈ (ofHistory history).clients := by
    intro h
    obtain ⟨s, hs⟩ := List.exists_mem_of_ne_nil _ h
    exact mem_clients_of_entry (List.mem_mergeSort.1 hs)
  refine ⟨mem_clients_iff_named, ?_, hlisted, ?_⟩
  · rw [total_statsOf, List.length_pos_iff]
  · rw [leftEmpty_iff, not_and]
    exact ⟨fun h => h.1, fun h => ⟨h, hlisted⟩⟩

/-- An order that one client has settled, and then another. -/
def takenOver : List Settlement :=
  [{ refusedAt 0 "r-1" .rejected with client := ⟨"c-1"⟩ },
    { refusedAt 1 "r-1" .rejected with client := ⟨"c-2"⟩ }]

/-- The first client is listed, and has nothing. -/
theorem listed_with_nothing_left : ⟨"c-1"⟩ ∈ (ofHistory takenOver).clients ∧
    (ofHistory takenOver).ofClient ⟨"c-1"⟩ = [] ∧
    ((ofHistory takenOver).statsOf ⟨"c-1"⟩).total = 0 := by
  have hnamed : ∃ s ∈ takenOver, s.client = ⟨"c-1"⟩ := ⟨_, List.mem_cons_self, rfl⟩
  have hnone : (ofHistory takenOver).entriesOf ⟨"c-1"⟩ = [] := by decide +kernel
  refine ⟨mem_clients_iff_named.2 hnamed, ?_, ?_⟩
  · rw [ofClient, hnone, List.mergeSort_nil]
  · rw [statsOf, hnone]
    rfl

end Register

end DealDesk
