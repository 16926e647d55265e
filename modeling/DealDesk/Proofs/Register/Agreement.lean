import DealDesk.Proofs.Register.Fresh
import DealDesk.Proofs.Register.Tally

/-!
# Registers that give the same answers

* `Register.AgreeBut` — two registers answer every question alike, up to what `view` hides of a
  settlement.
* `Settlement.Faithful` — a view that hides nothing by which settlements are arranged or counted;
  `Settlement.undated` hides the time of completion.
* `mergeSort_eq_of_perm` — what is sorted by keys that tell its members apart has one order.
* `mem_dedup`, `dedup_sorted` — the list of clients.

`agreeBut_of_perm` is the main result: the order in which settlements came in shows in no answer,
if no two originals share a name and no two settlements a sequence number.
-/

namespace DealDesk

/-! ## Views of a settlement -/

/-- A settlement without its time of completion. -/
def Settlement.undated (s : Settlement) : Settlement := { s with completedAt := 0 }

/-- The view keeps all by which a register arranges, counts and lists settlements. -/
structure Settlement.Faithful (view : Settlement → Settlement) : Prop where
  orderId : ∀ s, (view s).orderId = s.orderId
  client : ∀ s, (view s).client = s.client
  status : ∀ s, (view s).status = s.status
  sequence : ∀ s, (view s).sequence = s.sequence
  ticketRow : ∀ s, Register.ticketRow (view s) = Register.ticketRow s

theorem Settlement.undated_faithful : Settlement.Faithful Settlement.undated :=
  ⟨fun _ => rfl, fun _ => rfl, fun _ => rfl, fun _ => rfl, fun _ => rfl⟩

/-! ## Sorting -/

theorem mergeSort_eq_of_perm {α : Type} {le : α → α → Bool}
    (htrans : ∀ a b c, le a b → le b c → le a c) (htotal : ∀ a b, le a b || le b a)
    {l l' : List α} (h : l.Perm l') (hanti : ∀ a ∈ l, ∀ b ∈ l, le a b → le b a → a = b) :
    l.mergeSort le = l'.mergeSort le := by
  have hs := List.pairwise_mergeSort htrans htotal l
  have hs' := List.pairwise_mergeSort htrans htotal l'
  have hp : (l.mergeSort le).Perm (l'.mergeSort le) :=
    (List.mergeSort_perm l le).trans (h.trans (List.mergeSort_perm l' le).symm)
  refine List.Perm.eq_of_pairwise (fun a b ha hb => ?_) hs hs' hp
  exact hanti a (List.mem_mergeSort.1 ha) b (h.mem_iff.2 (List.mem_mergeSort.1 hb))

namespace Register

def bySequence (a b : Settlement) : Bool := a.sequence ≤ b.sequence

theorem bySequence_trans (a b c : Settlement) (hab : bySequence a b) (hbc : bySequence b c) :
    bySequence a c := by
  simp only [bySequence, decide_eq_true_eq] at *
  exact UInt64.le_trans hab hbc

theorem bySequence_total (a b : Settlement) : bySequence a b || bySequence b a := by
  simpa [bySequence] using UInt64.le_total a.sequence b.sequence

theorem mergeSort_bySequence {l l' : List Settlement} (h : l.Perm l')
    (hseq : (l.map (·.sequence)).Nodup) : l.mergeSort bySequence = l'.mergeSort bySequence := by
  refine mergeSort_eq_of_perm bySequence_trans bySequence_total h fun a ha b hb hab hba => ?_
  simp only [bySequence, decide_eq_true_eq] at hab hba
  exact List.inj_on_of_nodup_map hseq ha hb (UInt64.le_antisymm hab hba)

/-- Where sequence numbers differ, nothing else is asked. -/
theorem before_eq_bySequence {l : List Settlement} (hseq : (l.map (·.sequence)).Nodup)
    {a b : Settlement} (ha : a ∈ l) (hb : b ∈ l) : before a b = bySequence a b := by
  unfold before bySequence
  by_cases hab : a.sequence = b.sequence
  · have hab : a = b := List.inj_on_of_nodup_map hseq ha hb hab
    subst hab
    simp
  · rw [if_pos hab]
    exact decide_eq_decide.2 ⟨UInt64.le_of_lt, fun hle => UInt64.lt_of_le_of_ne hle hab⟩

def byName (a b : TicketRow) : Bool := a.orderId.text ≤ b.orderId.text

theorem byName_trans (a b c : TicketRow) (hab : byName a b) (hbc : byName b c) : byName a c := by
  simp only [byName, decide_eq_true_eq] at *
  exact String.le_trans hab hbc

theorem byName_total (a b : TicketRow) : byName a b || byName b a := by
  simpa [byName] using String.le_total a.orderId.text b.orderId.text

theorem mergeSort_byName {l l' : List TicketRow} (h : l.Perm l')
    (hn : (l.map (·.orderId)).Nodup) : l.mergeSort byName = l'.mergeSort byName := by
  refine mergeSort_eq_of_perm byName_trans byName_total h fun a ha b hb hab hba => ?_
  simp only [byName, decide_eq_true_eq] at hab hba
  exact List.inj_on_of_nodup_map hn ha hb (congrArg OrderId.mk (String.le_antisymm hab hba))

/-! ## The list of clients -/

theorem mem_dedup {l : List ClientId} {c : ClientId} : c ∈ dedup l ↔ c ∈ l := by
  fun_induction dedup l with
  | case1 a rest ih => simp [ih]
  | case2 a b rest hab ih => rw [List.mem_cons, ih, ← List.mem_cons]
  | case3 l h => exact Iff.rfl

/-- **Clients are listed once, by name.** -/
theorem dedup_sorted {l : List ClientId} (h : l.Pairwise fun a b => a.text ≤ b.text) :
    (dedup l).Pairwise fun a b => a.text < b.text := by
  fun_induction dedup l with
  | case1 a rest ih => exact ih h.tail
  | case2 a b rest hab ih =>
    refine List.pairwise_cons.2 ⟨fun c hc => ?_, ih h.tail⟩
    obtain ⟨hle, hrest⟩ := List.pairwise_cons.1 h
    have hab' : a.text ≤ b.text := hle b List.mem_cons_self
    have hbc : b.text ≤ c.text := by
      rcases List.mem_cons.1 (mem_dedup.1 hc) with rfl | hc
      · exact String.le_refl _
      · exact (List.pairwise_cons.1 hrest).1 c hc
    refine String.not_le.1 fun hca => hab ?_
    cases a; cases b
    exact congrArg ClientId.mk (String.le_antisymm hab' (String.le_trans hbc hca))
  | case3 l h' =>
    cases l with
    | nil => exact List.Pairwise.nil
    | cons a rest =>
      cases rest with
      | nil => exact List.pairwise_singleton _ a
      | cons b rest => exact absurd rfl (h' a b rest)

theorem clients_sorted (r : Register) : r.clients.Pairwise fun a b => a.text < b.text := by
  refine dedup_sorted ?_
  have htrans : ∀ a b c : ClientId, decide (a.text ≤ b.text) → decide (b.text ≤ c.text) →
      decide (a.text ≤ c.text) := by
    intro a b c hab hbc
    simp only [decide_eq_true_eq] at *
    exact String.le_trans hab hbc
  have htotal : ∀ a b : ClientId, decide (a.text ≤ b.text) || decide (b.text ≤ a.text) := by
    intro a b
    simpa using String.le_total a.text b.text
  have hs := List.pairwise_mergeSort htrans htotal (r.index.keys ++ r.duplicates.keys)
  exact hs.imp fun h => by simpa using h

theorem mem_clients (r : Register) {c : ClientId} :
    c ∈ r.clients ↔ c ∈ r.index.keys ++ r.duplicates.keys := by
  rw [clients, mem_dedup, List.mem_mergeSort]

theorem clients_nodup (r : Register) : r.clients.Nodup := by
  refine (clients_sorted r).imp fun hlt => ?_
  rintro rfl
  exact String.lt_irrefl _ hlt

/-- The clients of a register are told by who they are. -/
theorem clients_eq {r r' : Register}
    (h : ∀ c, c ∈ r.index.keys ++ r.duplicates.keys ↔ c ∈ r'.index.keys ++ r'.duplicates.keys) :
    r.clients = r'.clients := by
  have hp : r.clients.Perm r'.clients := by
    refine (List.perm_ext_iff_of_nodup (clients_nodup r) (clients_nodup r')).2 fun c => ?_
    rw [mem_clients, mem_clients, h]
  refine List.Perm.eq_of_pairwise (fun a b _ _ hab hba => ?_) (clients_sorted r) (clients_sorted r')
    hp
  exact absurd hab (String.lt_asymm hba)

/-! ## Agreement -/

/-- Every question is answered alike, up to what `view` hides of a settlement. -/
structure AgreeBut (view : Settlement → Settlement) (r r' : Register) : Prop where
  find? : ∀ id, (r.find? id).map view = (r'.find? id).map view
  ofClient : ∀ c, (r.ofClient c).map view = (r'.ofClient c).map view
  all : r.all.map view = r'.all.map view
  stats : r.stats = r'.stats
  statsOf : ∀ c, r.statsOf c = r'.statsOf c
  clients : r.clients = r'.clients
  tickets : r.tickets = r'.tickets
  size : r.size = r'.size

namespace AgreeBut

variable {view : Settlement → Settlement} {r r' r'' : Register}

theorem symm (h : AgreeBut view r r') : AgreeBut view r' r :=
  ⟨fun id => (h.find? id).symm, fun c => (h.ofClient c).symm, h.all.symm, h.stats.symm,
    fun c => (h.statsOf c).symm, h.clients.symm, h.tickets.symm, h.size.symm⟩

theorem trans (h : AgreeBut view r r') (h' : AgreeBut view r' r'') : AgreeBut view r r'' :=
  ⟨fun id => (h.find? id).trans (h'.find? id), fun c => (h.ofClient c).trans (h'.ofClient c),
    h.all.trans h'.all, h.stats.trans h'.stats, fun c => (h.statsOf c).trans (h'.statsOf c),
    h.clients.trans h'.clients, h.tickets.trans h'.tickets, h.size.trans h'.size⟩

end AgreeBut

/-- The next sequence number shows in no answer. -/
theorem agreeBut_withNext (view : Settlement → Settlement) (r : Register) (n : UInt64) :
    AgreeBut view { r with nextSequence := n } r :=
  ⟨fun _ => rfl, fun _ => rfl, rfl, rfl, fun _ => rfl, rfl, rfl, rfl⟩

section Perm

variable {view : Settlement → Settlement} {l l' : List Settlement}

theorem originals_map (hv : Settlement.Faithful view) (l : List Settlement) :
    originals (l.map view) = (originals l).map view := by
  rw [originals, List.filter_map, originals]
  congr 1
  apply List.filter_congr
  intro s _
  simp [Settlement.isOriginal, hv.status]

/-- A history is as fresh as what is seen of it. -/
theorem fresh_map_iff (hv : Settlement.Faithful view) : Fresh (l.map view) ↔ Fresh l := by
  have hcomp : (fun s : Settlement => s.orderId) ∘ view = fun s => s.orderId := funext hv.orderId
  rw [Fresh, originals_map hv, List.map_map, hcomp, Fresh]

theorem filter_client_map (hv : Settlement.Faithful view) (l : List Settlement) (c : ClientId) :
    (l.map view).filter (·.client = c) = (l.filter (·.client = c)).map view := by
  rw [List.filter_map]
  congr 1
  apply List.filter_congr
  intro s _
  simp [hv.client]

/-- What one register finds, the other finds as well. -/
theorem find?_of_perm (hv : Settlement.Faithful view) (hf : Fresh l) (hf' : Fresh l')
    (hp : (l.map view).Perm (l'.map view)) {id : OrderId} {s : Settlement}
    (h : (ofHistory l).find? id = some s) :
    ∃ s', (ofHistory l').find? id = some s' ∧ view s = view s' := by
  obtain ⟨hs, hid⟩ := (find?_fresh_iff hf).1 h
  have hm : view s ∈ (originals l').map view := by
    rw [← originals_map hv]
    refine (hp.filter _).mem_iff.1 ?_
    show view s ∈ originals (l.map view)
    rw [originals_map hv]
    exact List.mem_map_of_mem hs
  obtain ⟨s', hs', he⟩ := List.mem_map.1 hm
  refine ⟨s', (find?_fresh_iff hf').2 ⟨hs', ?_⟩, he.symm⟩
  rw [← hid, ← hv.orderId, he, hv.orderId]

theorem find?_map_eq (hv : Settlement.Faithful view) (hf : Fresh l) (hf' : Fresh l')
    (hp : (l.map view).Perm (l'.map view)) (id : OrderId) :
    ((ofHistory l).find? id).map view = ((ofHistory l').find? id).map view := by
  cases h : (ofHistory l).find? id with
  | some s =>
    obtain ⟨s', hs', he⟩ := find?_of_perm hv hf hf' hp h
    rw [hs', Option.map_some, Option.map_some, he]
  | none =>
    cases h' : (ofHistory l').find? id with
    | none => rfl
    | some s' =>
      obtain ⟨s, hs, -⟩ := find?_of_perm hv hf' hf hp.symm h'
      rw [h] at hs
      cases hs

/-- A sorted list of settlements shows only what is sorted. -/
theorem sorted_map_eq (hv : Settlement.Faithful view) {m m' : List Settlement}
    {le : Settlement → Settlement → Bool} (hp : (m.map view).Perm (m'.map view))
    (hseq : (m.map (·.sequence)).Nodup) (hle : ∀ a ∈ m, ∀ b ∈ m, le a b = bySequence a b)
    (hle' : ∀ a ∈ m', ∀ b ∈ m', le a b = bySequence a b) :
    (m.mergeSort le).map view = (m'.mergeSort le).map view := by
  have hview : ∀ a b, bySequence (view a) (view b) = bySequence a b := by
    intro a b
    rw [bySequence, bySequence, hv.sequence, hv.sequence]
  rw [List.map_mergeSort (s := bySequence) fun a ha b hb => (hle a ha b hb).trans (hview a b).symm,
    List.map_mergeSort (s := bySequence) fun a ha b hb => (hle' a ha b hb).trans (hview a b).symm]
  refine mergeSort_bySequence hp ?_
  rw [List.map_map]
  have hcomp : (fun s => s.sequence) ∘ view = fun s => s.sequence := funext hv.sequence
  rw [hcomp]
  exact hseq

theorem tickets_eq (hv : Settlement.Faithful view) (hf : Fresh l) (hf' : Fresh l')
    (hp : (l.map view).Perm (l'.map view)) : (ofHistory l).tickets = (ofHistory l').tickets := by
  have hrows : ∀ m : List Settlement,
      (originals m).filterMap ticketRow = (originals (m.map view)).filterMap ticketRow := by
    intro m
    rw [originals_map hv, List.filterMap_map]
    exact congrArg (List.filterMap · _) (funext fun s => (hv.ticketRow s).symm)
  have hnames : (((originals l).filterMap ticketRow).map (·.orderId)).Nodup :=
    (sublist_ticketRow _).nodup hf
  rw [tickets, tickets, values_fresh hf, values_fresh hf']
  refine mergeSort_byName ?_ hnames
  rw [hrows l, hrows l']
  exact (hp.filter _).filterMap _

theorem statuses_perm (hv : Settlement.Faithful view) {m m' : List Settlement}
    (hp : (m.map view).Perm (m'.map view)) : (m.map (·.status)).Perm (m'.map (·.status)) := by
  have hs := hp.map (·.status)
  rw [List.map_map, List.map_map] at hs
  have hcomp : (fun s : Settlement => s.status) ∘ view = fun s => s.status := funext hv.status
  rwa [hcomp] at hs

/-- Where sequence numbers differ, all settlements are listed by number alone. -/
theorem all_eq_mergeSort {r : Register} (hseq : (r.entries.map (·.sequence)).Nodup) :
    r.all = r.entries.mergeSort bySequence := by
  have h := List.map_mergeSort (f := id) (s := bySequence)
    fun a ha b hb => before_eq_bySequence hseq ha hb
  rwa [List.map_id, List.map_id] at h

/-- **The order of records shows in no answer**, if no two originals share a name and no two
settlements a sequence number. -/
theorem agreeBut_of_perm (hv : Settlement.Faithful view) (hf : Fresh l)
    (hseq : (l.map (·.sequence)).Nodup) (hp : (l.map view).Perm (l'.map view)) :
    AgreeBut view (ofHistory l) (ofHistory l') := by
  have hf' : Fresh l' := (fresh_map_iff hv).1 (((fresh_map_iff hv).2 hf).perm hp)
  have hseq' : (l'.map (·.sequence)).Nodup := by
    have hs := hp.map (·.sequence)
    rw [List.map_map, List.map_map] at hs
    have hcomp : (fun s : Settlement => s.sequence) ∘ view = fun s => s.sequence :=
      funext hv.sequence
    rw [hcomp] at hs
    exact hs.nodup_iff.1 hseq
  have hentries : ((ofHistory l).entries.map view).Perm ((ofHistory l').entries.map view) :=
    ((entries_perm hf).map view).trans (hp.trans ((entries_perm hf').map view).symm)
  have hof : ∀ c, (((ofHistory l).entriesOf c).map view).Perm
      (((ofHistory l').entriesOf c).map view) := by
    intro c
    refine ((entriesOf_perm hf c).map view).trans (List.Perm.trans ?_
      ((entriesOf_perm hf' c).map view).symm)
    rw [← filter_client_map hv, ← filter_client_map hv]
    exact hp.filter _
  have hseqs : ((ofHistory l).entries.map (·.sequence)).Nodup :=
    (((entries_perm hf).map _).nodup_iff).2 hseq
  have hseqs' : ((ofHistory l').entries.map (·.sequence)).Nodup :=
    (((entries_perm hf').map _).nodup_iff).2 hseq'
  have hseqof : ∀ c, (((ofHistory l).entriesOf c).map (·.sequence)).Nodup := by
    intro c
    refine (((entriesOf_perm hf c).map _).nodup_iff).2 ?_
    exact (List.filter_sublist.map _).nodup hseq
  refine ⟨find?_map_eq hv hf hf' hp, fun c => ?_, ?_, ?_, fun c => ?_, ?_, tickets_eq hv hf hf' hp,
    ?_⟩
  · exact sorted_map_eq hv (hof c) (hseqof c) (fun _ _ _ _ => rfl) fun _ _ _ _ => rfl
  · exact sorted_map_eq hv hentries hseqs (fun a ha b hb => before_eq_bySequence hseqs ha hb)
      fun a ha b hb => before_eq_bySequence hseqs' ha hb
  · exact Stats.ofStatuses_perm (statuses_perm hv hentries)
  · exact Stats.ofStatuses_perm (statuses_perm hv (hof c))
  · refine clients_eq fun c => ?_
    rw [mem_keys_fresh hf, mem_keys_fresh hf']
    have hmem : ∀ m : List Settlement,
        (∃ s ∈ m, s.client = c) ↔ ∃ s ∈ m.map view, s.client = c := by
      intro m
      simp [hv.client]
    rw [hmem l, hmem l']
    exact exists_congr fun s => and_congr_left fun _ => hp.mem_iff
  · rw [size_fresh hf, size_fresh hf', ← List.length_map (f := view), hp.length_eq, List.length_map]

end Perm

end Register

end DealDesk
