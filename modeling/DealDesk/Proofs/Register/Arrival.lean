import DealDesk.Summary
import DealDesk.Proofs.Register.Accounts

/-!
# The order of arrival

* `Rearranges` — a register with the rows of another one in its tables, in any order.
* `Rearranges.agree` — it answers alike, as long as no two settlements share a number.
* `AgreeBut.summaryLines_eq` — registers that answer alike print the same summary.
* `lists_strictly_sorted` — what a register lists comes strictly by number, if no two settlements share
  one.

`arrival_unobservable` is the main result: neither the order in which settlements are recorded nor
the order in which the tables keep their rows shows in an answer or in the summary.
-/

namespace DealDesk

/-- The view that hides nothing. -/
theorem Settlement.id_faithful : Settlement.Faithful id :=
  ⟨fun _ => rfl, fun _ => rfl, fun _ => rfl, fun _ => rfl, fun _ => rfl⟩

namespace Register

variable {r r' : Register}

/-! ## Rows in any order -/

/-- The tables of `r` have the rows of those of `r'`, in any order. -/
structure Rearranges (r r' : Register) : Prop where
  results : r.results.Perm r'.results
  index : r.index.Perm r'.index
  duplicates : r.duplicates.Perm r'.duplicates

namespace Rearranges

theorem refl (r : Register) : Rearranges r r := ⟨.refl _, .refl _, .refl _⟩

theorem find?_eq (h : Rearranges r r') (hk : Keyed r') : r.find? = r'.find? :=
  funext fun id => (Table.get?_perm h.results.symm hk.results id).symm

theorem entriesOf_eq (h : Rearranges r r') (hk : Keyed r') : r.entriesOf = r'.entriesOf := by
  funext c
  have hindex := Table.get?_perm h.index.symm hk.index c
  have hduplicates := Table.get?_perm h.duplicates.symm hk.duplicates c
  rw [entriesOf, entriesOf, h.find?_eq hk, hindex, hduplicates]

theorem entries_perm (h : Rearranges r r') : r.entries.Perm r'.entries :=
  (h.results.map Prod.snd).append (h.duplicates.map Prod.snd).flatten

theorem clients_eq (h : Rearranges r r') : r.clients = r'.clients := by
  refine Register.clients_eq fun c => ?_
  exact ((h.index.map Prod.fst).append (h.duplicates.map Prod.fst)).mem_iff

theorem tickets_eq (h : Rearranges r r') (hn : (r'.results.values.map (·.orderId)).Nodup) :
    r.tickets = r'.tickets := by
  have hvalues : r'.results.values.Perm r.results.values := (h.results.map Prod.snd).symm
  have hnames : ((r'.results.values.filterMap ticketRow).map (·.orderId)).Nodup :=
    (sublist_ticketRow _).nodup hn
  exact (mergeSort_byName (hvalues.filterMap _) hnames).symm

theorem all_eq (h : Rearranges r r') (hseq : (r'.entries.map (·.sequence)).Nodup) :
    r.all = r'.all := by
  have hseq' : (r.entries.map (·.sequence)).Nodup := (h.entries_perm.map _).nodup_iff.2 hseq
  rw [all_eq_mergeSort hseq, all_eq_mergeSort hseq']
  exact mergeSort_bySequence h.entries_perm hseq'

/-- **The order of rows shows in no answer**, if no two settlements share a sequence number. -/
theorem agree (h : Rearranges r r') (hk : Keyed r')
    (hn : (r'.results.values.map (·.orderId)).Nodup)
    (hseq : (r'.entries.map (·.sequence)).Nodup) : AgreeBut id r r' where
  find? id := by rw [h.find?_eq hk]
  ofClient c := by rw [ofClient, ofClient, h.entriesOf_eq hk]
  all := by rw [h.all_eq hseq]
  stats := Stats.ofStatuses_perm (h.entries_perm.map _)
  statsOf c := by rw [statsOf, statsOf, h.entriesOf_eq hk]
  clients := h.clients_eq
  tickets := h.tickets_eq hn
  size := by rw [size_eq_entries, size_eq_entries, h.entries_perm.length_eq]

end Rearranges

/-- **Registers that answer alike print the same summary.** -/
theorem AgreeBut.summaryLines_eq {view : Settlement → Settlement} (h : AgreeBut view r r') :
    Summary.summaryLines r = Summary.summaryLines r' := by
  have hstats : r.statsOf = r'.statsOf := funext h.statsOf
  have hwith : ∀ rows, Summary.summaryWith rows r = Summary.summaryWith rows r' := by
    intro rows
    rw [Summary.summaryWith, Summary.summaryWith, h.stats, h.tickets]
  rw [Summary.summaryLines, Summary.summaryLines, Summary.clientRows?, Summary.clientRows?, hstats,
    h.clients, funext hwith]

theorem mergeSort_strictly_sorted {l : List Settlement} (hseq : (l.map (·.sequence)).Nodup) :
    (l.mergeSort bySequence).Pairwise fun a b => a.sequence < b.sequence := by
  have hsorted := (inSubmissionOrder_mergeSort l).sorted
  have hne : ((l.mergeSort bySequence).map (·.sequence)).Nodup :=
    ((List.mergeSort_perm _ _).map _).nodup_iff.2 hseq
  refine (hsorted.and (List.pairwise_map.1 hne)).imp fun h => ?_
  exact UInt64.lt_of_le_of_ne h.1 h.2

/-- Settlements with different numbers are listed by number. -/
theorem all_strictly_sorted (hseq : (r.entries.map (·.sequence)).Nodup) :
    r.all.Pairwise fun a b => a.sequence < b.sequence := by
  rw [all_eq_mergeSort hseq]
  exact mergeSort_strictly_sorted hseq

/-- **Settlements with different numbers are listed by number**, all of them and those of a client,
whatever names they share. -/
theorem lists_strictly_sorted {history : List Settlement}
    (hseq : (history.map (·.sequence)).Nodup) :
    ((ofHistory history).all.Pairwise fun a b => a.sequence < b.sequence) ∧
    ∀ c, ((ofHistory history).ofClient c).Pairwise fun a b => a.sequence < b.sequence := by
  have hentries : ((ofHistory history).entries.map (·.sequence)).Nodup := by
    obtain ⟨kept, hperm, hsub⟩ := entries_subperm history
    exact (hperm.map _).nodup_iff.1 ((hsub.map _).nodup hseq)
  refine ⟨all_strictly_sorted hentries, fun c => ?_⟩
  have hof : (((ofHistory history).entriesOf c).map (·.sequence)).Nodup :=
    ((entries_filter_perm history c).map _).nodup_iff.1 ((List.filter_sublist.map _).nodup hentries)
  exact mergeSort_strictly_sorted hof

/-! ## Settlements in any order -/

/-- **The order of arrival is not observable.** Settlements of which no two originals share a name,
and no two a sequence number, are recorded in one order and in another; the tables of either
register may keep their rows in any order. All questions are answered alike, the summaries are the
same, and the list of all settlements is in order of submission. -/
theorem arrival_unobservable {l l' : List Settlement} (hf : Fresh l)
    (hseq : (l.map (·.sequence)).Nodup) (hp : l.Perm l') (hr : Rearranges r (ofHistory l))
    (hr' : Rearranges r' (ofHistory l')) :
    (∀ id, r.find? id = r'.find? id) ∧ (∀ c, r.ofClient c = r'.ofClient c) ∧ r.all = r'.all ∧
    r.stats = r'.stats ∧ (∀ c, r.statsOf c = r'.statsOf c) ∧ r.clients = r'.clients ∧
    r.tickets = r'.tickets ∧ r.size = r'.size ∧
    Summary.text (Summary.summaryLines r) = Summary.text (Summary.summaryLines r') ∧
    r.all.Pairwise fun a b => a.sequence < b.sequence := by
  have arranged : ∀ {m : List Settlement} {r : Register}, Fresh m →
      (m.map (·.sequence)).Nodup → Rearranges r (ofHistory m) → AgreeBut id r (ofHistory m) := by
    intro m r hf hseq hr
    have hn : ((ofHistory m).results.values.map (·.orderId)).Nodup := by
      rw [values_fresh hf]
      exact hf
    exact hr.agree (ofHistory_keyed m) hn (((entries_perm hf).map _).nodup_iff.2 hseq)
  have hseq' : (l'.map (·.sequence)).Nodup := (hp.map _).nodup_iff.1 hseq
  have hrecorded : AgreeBut id (ofHistory l) (ofHistory l') :=
    agreeBut_of_perm Settlement.id_faithful hf hseq (hp.map id)
  have h : AgreeBut id r r' := ((arranged hf hseq hr).trans hrecorded).trans
    (arranged (hf.perm hp) hseq' hr').symm
  have hentries : (r.entries.map (·.sequence)).Nodup :=
    ((hr.entries_perm.trans (entries_perm hf)).map _).nodup_iff.2 hseq
  refine ⟨fun id => ?_, fun c => ?_, ?_, h.stats, h.statsOf, h.clients, h.tickets, h.size, ?_,
    all_strictly_sorted hentries⟩
  · simpa using h.find? id
  · simpa using h.ofClient c
  · simpa using h.all
  · rw [h.summaryLines_eq]

/-- Settlement `n` of an order of the client `c-1`. -/
def refusedAt (n : UInt64) (name : String) (status : Status) : Settlement :=
  { orderId := ⟨name⟩, client := ⟨"c-1"⟩, status := status, ticket := none, price := none
    error := some "refused", retries := 0, sequence := n, completedAt := 0 }

/-- An order, its repetition and another order, each settled. -/
def oneRepeated : List Settlement :=
  [refusedAt 0 "r-1" .rejected, refusedAt 1 "r-1" .duplicate, refusedAt 2 "r-2" .rejected]

/-- Backwards, the repetition comes before the order that it repeats. -/
theorem arrival_unobservable_backwards :
    (ofHistory oneRepeated).ofClient ⟨"c-1"⟩ = (ofHistory oneRepeated.reverse).ofClient ⟨"c-1"⟩ ∧
    (ofHistory oneRepeated).all = (ofHistory oneRepeated.reverse).all ∧
    (ofHistory oneRepeated).results ≠ (ofHistory oneRepeated.reverse).results := by
  have hf : Fresh oneRepeated := by
    show (List.map _ _).Nodup
    decide
  obtain ⟨-, hclient, hall, -⟩ := arrival_unobservable hf (by decide)
    (List.reverse_perm oneRepeated).symm (Rearranges.refl _) (Rearranges.refl _)
  refine ⟨hclient _, hall, fun h => ?_⟩
  have hkeys := congrArg (List.map Prod.fst) h
  revert hkeys
  decide

end Register

end DealDesk
