import DealDesk.Proofs.Register.Log
import Mathlib

/-!
# The accounts of a register

* `Stats.Tallied` — counts by status that add up; `tallied_ofStatuses` has it of every list.
* `flatMap_filter_perm` — a list taken apart by keys, and put together again.
* `entries_subperm` — whatever a register holds was recorded.
* `entries_filter_perm` — a client's entries, which the index leads to, are those of all entries
  that name the client.
* `sum_count_statsOf` — the clients' counts of a status add up to the count of all.
* `Balanced` — the lists, counts and sizes that a register gives agree with one another.

`accounts_balance` is the main result: they agree after every history.
-/

namespace DealDesk

/-! ## Counts by status -/

namespace Stats

/-- The counts add up: those by status, each listed once, and those of the four groups. -/
structure Tallied (st : Stats) : Prop where
  listed : st.byStatus.Pairwise fun a b => a.1.rank < b.1.rank
  positive : ∀ e ∈ st.byStatus, 0 < e.2
  sum : (st.byStatus.map Prod.snd).sum = st.total
  groups : st.successful + st.rejected + st.errors + st.duplicates = st.total

theorem sum_tally (order : List Status) (n : Status → Nat) :
    ((tally order n).map Prod.snd).sum = (order.map n).sum := by
  induction order with
  | nil => rfl
  | cons s order ih =>
    rw [List.map_cons, List.sum_cons]
    by_cases hn : n s = 0
    · rw [tally_cons_zero hn, ih, hn, Nat.zero_add]
    · rw [tally_cons_pos hn, List.map_cons, List.sum_cons, ih]

/-- Every status is one of the seven. -/
theorem sum_counts (l : List Status) : (Status.all.map l.count).sum = l.length := by
  induction l with
  | nil => rfl
  | cons s l ih =>
    rw [List.length_cons, ← ih]
    cases s <;> simp +arith [Status.all, List.count_cons]

theorem tallied_ofStatuses (l : List Status) : (ofStatuses l).Tallied where
  listed := by
    rw [ofStatuses_eq]
    refine List.Pairwise.filterMap _ (fun s t hlt a ha b hb => ?_) all_sorted
    split at ha
    · cases ha
    · split at hb
      · cases hb
      · cases ha
        cases hb
        exact hlt
  positive := by
    rw [ofStatuses_eq]
    intro e he
    obtain ⟨s, -, hs⟩ := List.mem_filterMap.1 he
    split at hs
    · cases hs
    · rename_i hpos
      cases hs
      exact Nat.pos_of_ne_zero hpos
  sum := by
    rw [ofStatuses_eq, sum_tally]
    exact sum_counts l
  groups := by
    have htotal : (ofStatuses l).total = l.length := by rw [ofStatuses_eq]
    have hsum := sum_counts l
    simp only [Status.all, List.map_cons, List.map_nil, List.sum_cons, List.sum_nil] at hsum
    simp only [successful, rejected, errors, duplicates, count_ofStatuses, htotal]
    omega

/-- What neither succeeded nor was a duplicate failed. -/
theorem Tallied.total_eq {st : Stats} (h : st.Tallied) :
    st.total = st.successful + (st.rejected + st.errors) + st.duplicates := by
  have hgroups := h.groups
  omega

end Stats

/-! ## Lists taken apart by keys -/

/-- **A list taken apart by its keys keeps every member.** -/
theorem flatMap_filter_perm {α κ : Type} [DecidableEq κ] {key : α → κ} {ks : List κ} {l : List α}
    (hn : ks.Nodup) (hkeys : ∀ a ∈ l, key a ∈ ks) :
    (ks.flatMap fun k => l.filter (key · = k)).Perm l := by
  induction ks generalizing l with
  | nil =>
    cases l with
    | nil => exact List.Perm.refl _
    | cons a l => cases hkeys a List.mem_cons_self
  | cons k ks ih =>
    obtain ⟨hk, hks⟩ := List.nodup_cons.1 hn
    -- the other keys find the same in what key `k` leaves over
    have hrest : (ks.flatMap fun k' => l.filter (key · = k')) =
        ks.flatMap fun k' => (l.filter fun a => !decide (key a = k)).filter (key · = k') := by
      refine List.flatMap_congr fun k' hk' => ?_
      have hne : k' ≠ k := fun h => hk (h ▸ hk')
      rw [List.filter_filter]
      refine List.filter_congr fun a _ => ?_
      by_cases ha : key a = k'
      · simp [ha, hne]
      · simp [ha]
    have hleft : ∀ a ∈ l.filter fun a => !decide (key a = k), key a ∈ ks := by
      intro a ha
      obtain ⟨hal, hne⟩ := List.mem_filter.1 ha
      exact (List.mem_cons.1 (hkeys a hal)).resolve_left (by simpa using hne)
    rw [List.flatMap_cons, hrest]
    exact ((ih hks hleft).append_left _).trans (List.filter_append_perm _ l)

namespace Register

variable {history : List Settlement} {s : Settlement} {c : ClientId} {id : OrderId}

/-! ## Entries -/

/-- What is kept under a name is the last original of that name. -/
theorem mem_results (history : List Settlement) {e : OrderId × Settlement} :
    e ∈ (ofHistory history).results ↔ latest history e.1 = some e.2 := by
  rw [← (ofHistory_logged history).find? e.1]
  exact Table.mem_iff_get? (ofHistory_keyed history).results

theorem mem_values (history : List Settlement) :
    s ∈ (ofHistory history).results.values ↔ latest history s.orderId = some s := by
  constructor
  · intro h
    obtain ⟨⟨id, s'⟩, he, rfl⟩ := List.mem_map.1 h
    have hlatest := (mem_results history).1 he
    rw [orderId_of_latest hlatest]
    exact hlatest
  · intro h
    exact List.mem_map.2 ⟨(s.orderId, s), (mem_results history).2 h, rfl⟩

/-- No two settlements are kept under one name. -/
theorem names_nodup (history : List Settlement) :
    ((ofHistory history).results.values.map (·.orderId)).Nodup := by
  have hkeys : (ofHistory history).results.values.map (·.orderId) =
      (ofHistory history).results.keys := by
    rw [Table.values, Table.keys, List.map_map]
    refine List.map_congr_left fun e he => ?_
    exact orderId_of_latest ((mem_results history).1 he)
  rw [hkeys]
  exact (ofHistory_keyed history).results

/-- **A register holds settlements of its history**, none more often than it was recorded. -/
theorem entries_subperm (history : List Settlement) :
    (ofHistory history).entries.Subperm history := by
  have hvalues : (ofHistory history).results.values.Subperm (originals history) := by
    refine List.subperm_of_subset (List.Nodup.of_map _ (names_nodup history)) fun s hs => ?_
    exact List.mem_of_mem_filter (List.mem_of_getLast? ((mem_values history).1 hs))
  exact (hvalues.append (ofHistory_logged history).repeated.subperm).trans
    (originals_perm_repeats history).subperm

/-- **The index leads to the settlements that name the client.** -/
theorem values_filter_perm (history : List Settlement) (c : ClientId) :
    ((ofHistory history).results.values.filter (·.client = c)).Perm
      ((holdings history c).filterMap (latest history)) := by
  have hids : ((holdings history c).filterMap (latest history)).map (·.orderId) =
      holdings history c := by
    rw [List.map_filterMap]
    refine (List.filterMap_congr fun id hid => ?_).trans List.filterMap_some
    have howner := (mem_holdings history c id).1 hid
    obtain ⟨s, hs, -⟩ := Option.map_eq_some_iff.1 howner
    rw [hs, Option.map_some, orderId_of_latest hs]
  have hvalues := List.Nodup.of_map _ (names_nodup history)
  have hheld : ((holdings history c).filterMap (latest history)).Nodup := by
    refine List.Nodup.of_map (·.orderId) ?_
    rw [hids]
    exact holdings_nodup history c
  refine (List.perm_ext_iff_of_nodup (hvalues.filter _) hheld).2 fun s => ?_
  rw [List.mem_filter, mem_values, List.mem_filterMap, decide_eq_true_eq]
  constructor
  · rintro ⟨hs, rfl⟩
    refine ⟨s.orderId, (mem_holdings history s.client s.orderId).2 ?_, hs⟩
    rw [owner, hs, Option.map_some]
  · rintro ⟨id, hid, hs⟩
    have howner := (mem_holdings history c id).1 hid
    rw [owner, hs, Option.map_some] at howner
    rw [orderId_of_latest hs]
    exact ⟨hs, Option.some.inj howner⟩

/-- A client's entries are the entries that name it. -/
theorem entries_filter_perm (history : List Settlement) (c : ClientId) :
    ((ofHistory history).entries.filter (·.client = c)).Perm ((ofHistory history).entriesOf c) := by
  rw [entries, List.filter_append, entriesOf_eq]
  exact (values_filter_perm history c).append ((ofHistory_logged history).repeated.filter _)

theorem client_of_mem_entriesOf (h : s ∈ (ofHistory history).entriesOf c) : s.client = c := by
  have hm := (entries_filter_perm history c).mem_iff.2 h
  simpa using List.of_mem_filter hm

/-- A client with an entry is on the list of clients. -/
theorem mem_clients_of_entry {r : Register} (h : s ∈ r.entriesOf c) : c ∈ r.clients := by
  rw [mem_clients, List.mem_append]
  rcases List.mem_append.1 h with h | h
  · refine .inl (by_contra fun hc => ?_)
    rw [Table.get?_eq_none hc] at h
    cases h
  · refine .inr (by_contra fun hc => ?_)
    rw [Table.get?_eq_none hc] at h
    cases h

/-- **The clients' entries are all entries.** -/
theorem flatMap_entriesOf_perm (history : List Settlement) :
    ((ofHistory history).clients.flatMap (ofHistory history).entriesOf).Perm
      (ofHistory history).entries := by
  have hclients : ∀ s ∈ (ofHistory history).entries, s.client ∈ (ofHistory history).clients := by
    intro s hs
    have hm : s ∈ (ofHistory history).entries.filter (·.client = s.client) :=
      List.mem_filter.2 ⟨hs, by simp⟩
    exact mem_clients_of_entry ((entries_filter_perm history s.client).mem_iff.1 hm)
  refine (List.Perm.flatMap_left _ fun c _ => (entries_filter_perm history c).symm).trans ?_
  exact flatMap_filter_perm (clients_nodup _) hclients

/-! ## Accounts -/

theorem total_statsOf (r : Register) (c : ClientId) :
    (r.statsOf c).total = (r.ofClient c).length := by
  rw [statsOf, Stats.ofStatuses_eq, List.length_map, ofClient, List.length_mergeSort]

/-- **The clients' counts of a status add up** to the count of all. -/
theorem sum_count_statsOf (history : List Settlement) (status : Status) :
    ((ofHistory history).clients.map fun c => ((ofHistory history).statsOf c).count status).sum =
      (ofHistory history).stats.count status := by
  have hmap := (flatMap_entriesOf_perm history).map (·.status)
  rw [List.map_flatMap] at hmap
  rw [stats, Stats.count_ofStatuses, ← hmap.count_eq, List.count_flatMap]
  refine congrArg List.sum (List.map_congr_left fun c _ => ?_)
  exact Stats.count_ofStatuses _ _

/-- What a register says in one place agrees with what it says in another. -/
structure Balanced (r : Register) : Prop where
  /-- The clients' lists together are the list of all, and each client's list is its own. -/
  listed : (r.clients.flatMap r.ofClient).Perm r.all
  own : ∀ c, ∀ s ∈ r.ofClient c, s.client = c
  size : r.size = r.all.length
  total : r.stats.total = r.all.length
  totalOf : ∀ c, (r.statsOf c).total = (r.ofClient c).length
  count : ∀ status, r.stats.count status = r.all.countP (·.status = status)
  countOf : ∀ status, (r.clients.map fun c => (r.statsOf c).count status).sum =
    r.stats.count status
  tallied : r.stats.Tallied
  talliedOf : ∀ c, (r.statsOf c).Tallied
  clients : r.clients.Pairwise fun a b => a.text < b.text
  tickets : r.tickets.Pairwise fun a b => a.orderId.text < b.orderId.text
  ticketNames : (r.tickets.map (·.orderId)).Nodup

/-- Tickets are listed by name, and no name has two. -/
theorem tickets_sorted {r : Register} (hn : (r.results.values.map (·.orderId)).Nodup) :
    r.tickets.Pairwise (fun a b => a.orderId.text < b.orderId.text) ∧
      (r.tickets.map (·.orderId)).Nodup := by
  have hnames : (r.tickets.map (·.orderId)).Nodup :=
    ((List.mergeSort_perm _ _).map _).nodup_iff.2 ((sublist_ticketRow _).nodup hn)
  have hsorted : r.tickets.Pairwise fun a b => a.orderId.text ≤ b.orderId.text :=
    (List.pairwise_mergeSort byName_trans byName_total _).imp fun h => by simpa [byName] using h
  refine ⟨?_, hnames⟩
  refine (hsorted.and (List.pairwise_map.1 hnames)).imp fun h => ?_
  exact String.not_le.1 fun hle => h.2 (congrArg OrderId.mk (String.le_antisymm h.1 hle))

/-- **The accounts balance**, whatever was recorded. -/
theorem accounts_balance (history : List Settlement) : Balanced (ofHistory history) where
  listed := by
    have hsorted : ∀ c, ((ofHistory history).ofClient c).Perm ((ofHistory history).entriesOf c) :=
      fun c => List.mergeSort_perm _ _
    exact ((List.Perm.flatMap_left _ fun c _ => hsorted c).trans
      (flatMap_entriesOf_perm history)).trans (List.mergeSort_perm _ _).symm
  own c s hs := client_of_mem_entriesOf (List.mem_mergeSort.1 hs)
  size := by rw [size_eq_entries, all, List.length_mergeSort]
  total := by rw [stats, Stats.ofStatuses_eq, List.length_map, all, List.length_mergeSort]
  totalOf := total_statsOf _
  count status := by
    rw [stats, Stats.count_ofStatuses, List.count, List.countP_map, all,
      (List.mergeSort_perm _ _).countP_eq]
    exact List.countP_congr fun s _ => by simp
  countOf := sum_count_statsOf history
  tallied := Stats.tallied_ofStatuses _
  talliedOf _ := Stats.tallied_ofStatuses _
  clients := clients_sorted _
  tickets := (tickets_sorted (names_nodup history)).1
  ticketNames := (tickets_sorted (names_nodup history)).2

end Register

end DealDesk
