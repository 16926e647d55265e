import DealDesk.Proofs.Register.Agreement

/-!
# The register as a view of its history

* `latest` — the last original of a name; `owner` is its client.
* `Begins`, `holdings` — the names that a client holds, each at the record that begins its latest
  unbroken stretch with the client.
* `InSubmissionOrder` — a list in order of submission, with equal numbers left in their order.
* `Logged` — the tables of a register say of a name and of a client what the history says.

`Logged.record` keeps it from record to record, so that it holds of every history; the main result
is `answers_follow_log`.
-/

namespace DealDesk

namespace Register

variable {history before after l : List Settlement} {s : Settlement} {c : ClientId} {id : OrderId}

/-! ## Names -/

/-- The last original of a name. -/
def latest (history : List Settlement) (id : OrderId) : Option Settlement :=
  ((originals history).filter (·.orderId = id)).getLast?

/-- The client whose record of a name is the latest. -/
def owner (history : List Settlement) (id : OrderId) : Option ClientId :=
  (latest history id).map (·.client)

theorem originals_append (l l' : List Settlement) :
    originals (l ++ l') = originals l ++ originals l' :=
  List.filter_append ..

theorem repeats_append (l l' : List Settlement) : repeats (l ++ l') = repeats l ++ repeats l' :=
  List.filter_append ..

theorem originals_singleton : originals [s] = if s.status = .duplicate then [] else [s] := by
  simp [originals, List.filter_singleton, Settlement.isOriginal]

theorem repeats_singleton : repeats [s] = if s.status = .duplicate then [s] else [] := by
  simp [repeats, List.filter_singleton, Settlement.isOriginal]

/-- A repetition says nothing of its name. -/
theorem latest_concat_repeat (hs : s.status = .duplicate) : latest (l ++ [s]) = latest l := by
  funext id
  rw [latest, originals_append, originals_singleton, if_pos hs, List.append_nil, latest]

/-- **The last write wins.** -/
theorem latest_concat_original (hs : s.status ≠ .duplicate) (id : OrderId) :
    latest (l ++ [s]) id = if s.orderId = id then some s else latest l id := by
  rw [latest, originals_append, originals_singleton, if_neg hs, List.filter_append]
  by_cases hid : s.orderId = id
  · rw [if_pos hid, List.filter_cons_of_pos (by simpa using hid), List.filter_nil,
      List.getLast?_concat]
  · rw [if_neg hid, List.filter_cons_of_neg (by simpa using hid), List.filter_nil,
      List.append_nil, latest]

theorem orderId_of_latest (h : latest history id = some s) : s.orderId = id := by
  have hm := List.mem_of_getLast? h
  simpa using List.of_mem_filter hm

/-! ## What a client holds -/

/-- Does a name come to client `c` with record `s`, to stay? It was not the client's before, and
all its later originals are the client's. -/
def Begins (c : ClientId) (before : List Settlement) (s : Settlement) (after : List Settlement) :
    Prop :=
  (s.status ≠ .duplicate ∧ s.client = c ∧ owner before s.orderId ≠ some c) ∧
    ∀ s' ∈ originals after, s'.orderId = s.orderId → s'.client = c

instance : Decidable (Begins c before s after) := inferInstanceAs (Decidable (_ ∧ _))

def holdingsFrom (c : ClientId) (before : List Settlement) : List Settlement → List OrderId
  | [] => []
  | s :: after =>
    if Begins c before s after then s.orderId :: holdingsFrom c (before ++ [s]) after
    else holdingsFrom c (before ++ [s]) after

/-- The names that a client holds, in the order in which they last came to it. -/
def holdings (history : List Settlement) (c : ClientId) : List OrderId := holdingsFrom c [] history

theorem holdingsFrom_of_begins (h : Begins c before s after) : holdingsFrom c before (s :: after) =
    s.orderId :: holdingsFrom c (before ++ [s]) after :=
  if_pos h

theorem holdingsFrom_of_not_begins (h : ¬Begins c before s after) :
    holdingsFrom c before (s :: after) = holdingsFrom c (before ++ [s]) after :=
  if_neg h

theorem begins_concat_repeat {x : Settlement} (hs : s.status = .duplicate) :
    Begins c before x (after ++ [s]) ↔ Begins c before x after := by
  rw [Begins, originals_append, originals_singleton, if_pos hs, List.append_nil, Begins]

theorem begins_concat_original {x : Settlement} (hs : s.status ≠ .duplicate) :
    Begins c before x (after ++ [s]) ↔
      Begins c before x after ∧ (s.orderId = x.orderId → s.client = c) := by
  rw [Begins, Begins, originals_append, originals_singleton, if_neg hs, List.forall_mem_append,
    List.forall_mem_singleton]
  exact and_assoc.symm

theorem holdingsFrom_concat_repeat (hs : s.status = .duplicate) :
    holdingsFrom c before (after ++ [s]) = holdingsFrom c before after := by
  induction after generalizing before with
  | nil => exact holdingsFrom_of_not_begins fun h => h.1.1 hs
  | cons x after ih =>
    by_cases hx : Begins c before x after
    · rw [List.cons_append, holdingsFrom_of_begins ((begins_concat_repeat hs).2 hx),
        holdingsFrom_of_begins hx, ih]
    · rw [List.cons_append, holdingsFrom_of_not_begins (mt (begins_concat_repeat hs).1 hx),
        holdingsFrom_of_not_begins hx, ih]

/-- A client's own record adds its name, unless the client holds it. -/
theorem holdingsFrom_concat_own (hs : s.status ≠ .duplicate) (hc : s.client = c) :
    holdingsFrom c before (after ++ [s]) = holdingsFrom c before after ++
      if owner (before ++ after) s.orderId = some c then [] else [s.orderId] := by
  induction after generalizing before with
  | nil =>
    rw [List.append_nil, List.nil_append]
    by_cases ho : owner before s.orderId = some c
    · rw [if_pos ho]
      exact holdingsFrom_of_not_begins fun h => h.1.2.2 ho
    · rw [if_neg ho]
      exact holdingsFrom_of_begins ⟨⟨hs, hc, ho⟩, fun _ h => by cases h⟩
  | cons x after ih =>
    have hiff : Begins c before x (after ++ [s]) ↔ Begins c before x after := by
      rw [begins_concat_original hs]
      exact and_iff_left fun _ => hc
    have happ : before ++ x :: after = before ++ [x] ++ after := by simp
    by_cases hx : Begins c before x after
    · rw [List.cons_append, holdingsFrom_of_begins (hiff.2 hx), holdingsFrom_of_begins hx, ih, happ,
        List.cons_append]
    · rw [List.cons_append, holdingsFrom_of_not_begins (mt hiff.1 hx),
        holdingsFrom_of_not_begins hx, ih, happ]

/-- The record of another client takes its name away. -/
theorem holdingsFrom_concat_other (hs : s.status ≠ .duplicate) (hc : s.client ≠ c) :
    holdingsFrom c before (after ++ [s]) =
      (holdingsFrom c before after).filter (· ≠ s.orderId) := by
  induction after generalizing before with
  | nil => exact holdingsFrom_of_not_begins fun h => hc h.1.2.1
  | cons x after ih =>
    have hiff : Begins c before x (after ++ [s]) ↔
        Begins c before x after ∧ x.orderId ≠ s.orderId := by
      rw [begins_concat_original hs]
      exact and_congr_right fun _ => ⟨fun h he => hc (h he.symm), fun h he => absurd he.symm h⟩
    rw [List.cons_append]
    by_cases hx : Begins c before x after
    · rw [holdingsFrom_of_begins hx]
      by_cases hne : x.orderId ≠ s.orderId
      · rw [holdingsFrom_of_begins (hiff.2 ⟨hx, hne⟩), ih,
          List.filter_cons_of_pos (by simpa using hne)]
      · rw [holdingsFrom_of_not_begins fun h => hne (hiff.1 h).2, ih,
          List.filter_cons_of_neg (by simpa using hne)]
    · rw [holdingsFrom_of_not_begins hx, holdingsFrom_of_not_begins fun h => hx (hiff.1 h).1, ih]

theorem owner_concat_repeat (hs : s.status = .duplicate) : owner (l ++ [s]) = owner l := by
  funext id
  rw [owner, latest_concat_repeat hs, owner]

theorem owner_concat_original (hs : s.status ≠ .duplicate) (id : OrderId) :
    owner (l ++ [s]) id = if s.orderId = id then some s.client else owner l id := by
  rw [owner, latest_concat_original hs]
  split <;> rfl

/-- **A client holds the names whose latest record is its own.** -/
theorem mem_holdings (history : List Settlement) (c : ClientId) (id : OrderId) :
    id ∈ holdings history c ↔ owner history id = some c := by
  induction history using List.reverseRecOn with
  | nil => simp [holdings, holdingsFrom, owner, latest, originals]
  | append_singleton l s ih =>
    rw [holdings] at ih ⊢
    by_cases hs : s.status = .duplicate
    · rw [holdingsFrom_concat_repeat hs, ih, owner_concat_repeat hs]
    · rw [owner_concat_original hs]
      by_cases hc : s.client = c
      · rw [holdingsFrom_concat_own hs hc, List.mem_append, ih, List.nil_append]
        by_cases hid : s.orderId = id
        · subst hid
          rw [if_pos rfl, hc]
          split <;> simp [*]
        · rw [if_neg hid, or_iff_left]
          split
          · exact List.not_mem_nil
          · exact fun h => hid (List.mem_singleton.1 h).symm
      · rw [holdingsFrom_concat_other hs hc, List.mem_filter, ih]
        by_cases hid : s.orderId = id
        · subst hid
          simp [hc]
        · simp [hid, Ne.symm hid]

theorem holdings_nodup (history : List Settlement) (c : ClientId) : (holdings history c).Nodup := by
  induction history using List.reverseRecOn with
  | nil => exact List.nodup_nil
  | append_singleton l s ih =>
    rw [holdings] at ih ⊢
    by_cases hs : s.status = .duplicate
    · rw [holdingsFrom_concat_repeat hs]
      exact ih
    · by_cases hc : s.client = c
      · rw [holdingsFrom_concat_own hs hc, List.nil_append]
        split
        · rw [List.append_nil]
          exact ih
        · rename_i ho
          have hnew : s.orderId ∉ holdingsFrom c [] l := mt (mem_holdings l c _).1 ho
          exact ih.append (List.nodup_singleton _) (List.disjoint_singleton.2 hnew)
      · rw [holdingsFrom_concat_other hs hc]
        exact ih.filter _

/-! ## What a record does -/

/-- A repetition is kept apart. -/
theorem record_repeat (r : Register) (hs : s.status = .duplicate) : r.record s =
    { r with duplicates := r.duplicates.update s.client [] (· ++ [s]) } :=
  if_pos hs

/-- A name that is new to the register is listed under its client. -/
theorem record_new {r : Register} (hs : s.status ≠ .duplicate) (h : r.find? s.orderId = none) :
    r.record s = { r with
      results := r.results.put s.orderId s
      index := list r.index s.client s.orderId } := by
  have h : r.results.get? s.orderId = none := h
  rw [record, if_neg hs, h]

/-- A client's own record takes the place of the one before it. -/
theorem record_again {r : Register} {previous : Settlement} (hs : s.status ≠ .duplicate)
    (h : r.find? s.orderId = some previous) (hc : previous.client = s.client) :
    r.record s = { r with results := r.results.put s.orderId s } := by
  have h : r.results.get? s.orderId = some previous := h
  rw [record, if_neg hs, h]
  exact if_pos hc

/-- The record of another client moves the name. -/
theorem record_moved {r : Register} {previous : Settlement} (hs : s.status ≠ .duplicate)
    (h : r.find? s.orderId = some previous) (hc : previous.client ≠ s.client) :
    r.record s = { r with
      results := r.results.put s.orderId s
      index := list (unlist r.index previous.client s.orderId) s.client s.orderId } := by
  have h : r.results.get? s.orderId = some previous := h
  rw [record, if_neg hs, h]
  exact if_neg hc

section Index

variable {index : Table ClientId (List OrderId)} {c' : ClientId}

theorem getD_list_self : ((list index c id).get? c).getD [] = (index.get? c).getD [] ++ [id] := by
  rw [list, Table.update, Table.get?_put_self, Option.getD_some]

theorem get?_list_of_ne (h : c ≠ c') : (list index c id).get? c' = index.get? c' :=
  Table.get?_put_of_ne index _ h

theorem getD_unlist_self :
    ((unlist index c id).get? c).getD [] = ((index.get? c).getD []).filter (· ≠ id) := by
  unfold unlist
  cases h : index.get? c with
  | none => rw [h]; rfl
  | some ids => rw [Table.get?_put_self]; rfl

theorem get?_unlist_of_ne (h : c ≠ c') : (unlist index c id).get? c' = index.get? c' := by
  unfold unlist
  split
  · exact Table.get?_put_of_ne index _ h
  · rfl

theorem nodup_keys_unlist (h : index.keys.Nodup) : (unlist index c id).keys.Nodup := by
  unfold unlist
  split
  · exact Table.nodup_keys_put h _ _
  · exact h

end Index

/-- No table of the register has two rows of one key. -/
structure Keyed (r : Register) : Prop where
  results : r.results.keys.Nodup
  index : r.index.keys.Nodup
  duplicates : r.duplicates.keys.Nodup

theorem Keyed.record {r : Register} (h : Keyed r) (s : Settlement) : Keyed (r.record s) := by
  have hput := Table.nodup_keys_put h.results s.orderId s
  by_cases hs : s.status = .duplicate
  · rw [record_repeat r hs]
    exact ⟨h.results, h.index, Table.nodup_keys_put h.duplicates _ _⟩
  · cases hf : r.find? s.orderId with
    | none =>
      rw [record_new hs hf]
      exact ⟨hput, Table.nodup_keys_put h.index _ _, h.duplicates⟩
    | some previous =>
      by_cases hc : previous.client = s.client
      · rw [record_again hs hf hc]
        exact ⟨hput, h.index, h.duplicates⟩
      · rw [record_moved hs hf hc]
        exact ⟨hput, Table.nodup_keys_put (nodup_keys_unlist h.index) _ _, h.duplicates⟩

theorem ofHistory_keyed (history : List Settlement) : Keyed (ofHistory history) := by
  induction history using List.reverseRecOn with
  | nil => exact ⟨List.nodup_nil, List.nodup_nil, List.nodup_nil⟩
  | append_singleton l s ih =>
    rw [ofHistory_append]
    exact ih.record s

/-! ## The register of a history -/

/-- The tables of a register say what a history says. -/
structure Logged (history : List Settlement) (r : Register) : Prop where
  find? : ∀ id, r.find? id = latest history id
  index : ∀ c, (r.index.get? c).getD [] = holdings history c
  duplicates : ∀ c, (r.duplicates.get? c).getD [] = (repeats history).filter (·.client = c)
  repeated : r.duplicates.values.flatten.Perm (repeats history)

namespace Logged

variable {r : Register}

/-- A repetition changes what is kept apart, and nothing else. -/
theorem record_of_repeat (h : Logged history r) (hs : s.status = .duplicate) :
    Logged (history ++ [s]) (r.record s) := by
  have hrepeats : repeats (history ++ [s]) = repeats history ++ [s] := by
    rw [repeats_append, repeats_singleton, if_pos hs]
  rw [record_repeat r hs]
  refine ⟨fun id => ?_, fun c => ?_, fun c => ?_, ?_⟩
  · rw [latest_concat_repeat hs]
    exact h.find? id
  · rw [holdings, holdingsFrom_concat_repeat hs]
    exact h.index c
  · rw [hrepeats, List.filter_append, ← h.duplicates]
    by_cases hc : s.client = c
    · subst hc
      rw [List.filter_cons_of_pos (by simp), Table.update, Table.get?_put_self]
      rfl
    · rw [List.filter_cons_of_neg (by simpa using hc), Table.update, Table.get?_put_of_ne _ _ hc]
      exact (List.append_nil _).symm
  · rw [hrepeats]
    exact (Table.flatten_put _ _ _).trans (h.repeated.append_right _)

/-- An original takes its name, and its client comes to hold it. What is asked of the index is that
it lists the name under the client, unless it did, and under no other. -/
theorem of_original (h : Logged history r) (hs : s.status ≠ .duplicate)
    {index : Table ClientId (List OrderId)}
    (hown : (index.get? s.client).getD [] = holdings history s.client ++
      if owner history s.orderId = some s.client then [] else [s.orderId])
    (hother : ∀ c, s.client ≠ c →
      (index.get? c).getD [] = (holdings history c).filter (· ≠ s.orderId)) :
    Logged (history ++ [s])
      { r with results := r.results.put s.orderId s, index := index } := by
  have hrepeats : repeats (history ++ [s]) = repeats history := by
    rw [repeats_append, repeats_singleton, if_neg hs, List.append_nil]
  refine ⟨fun id => ?_, fun c => ?_, fun c => ?_, ?_⟩
  · rw [latest_concat_original hs]
    by_cases hid : s.orderId = id
    · subst hid
      rw [if_pos rfl]
      exact Table.get?_put_self _ _ _
    · rw [if_neg hid, ← h.find?]
      exact Table.get?_put_of_ne _ _ hid
  · by_cases hc : s.client = c
    · subst hc
      rw [holdings, holdingsFrom_concat_own hs rfl]
      exact hown
    · rw [holdings, holdingsFrom_concat_other hs hc]
      exact hother c hc
  · rw [hrepeats]
    exact h.duplicates c
  · rw [hrepeats]
    exact h.repeated

/-- Another client's list is not changed by a name that it does not hold. -/
theorem filter_holdings (h : owner history id ≠ some c) :
    (holdings history c).filter (· ≠ id) = holdings history c := by
  refine List.filter_eq_self.2 fun id' hid' => ?_
  have howner := (mem_holdings history c id').1 hid'
  have hne : id' ≠ id := fun he => h (he ▸ howner)
  simpa using hne

/-- **Each record adds to the history what it adds to the register.** -/
theorem record (h : Logged history r) (s : Settlement) : Logged (history ++ [s]) (r.record s) := by
  by_cases hs : s.status = .duplicate
  · exact h.record_of_repeat hs
  · cases hf : r.find? s.orderId with
    | none =>
      have howner : owner history s.orderId = none := by rw [owner, ← h.find?, hf]; rfl
      rw [record_new hs hf]
      refine h.of_original hs ?_ fun c hc => ?_
      · rw [getD_list_self, h.index, howner, if_neg nofun]
      · rw [get?_list_of_ne hc, h.index, filter_holdings (by rw [howner]; nofun)]
    | some previous =>
      have howner : owner history s.orderId = some previous.client := by
        rw [owner, ← h.find?, hf]; rfl
      by_cases hp : previous.client = s.client
      · rw [record_again hs hf hp]
        refine h.of_original hs ?_ fun c hc => ?_
        · rw [h.index, howner, hp, if_pos rfl, List.append_nil]
        · have hne : owner history s.orderId ≠ some c := by
            rw [howner, hp]
            exact fun he => hc (Option.some.inj he)
          rw [h.index, filter_holdings hne]
      · rw [record_moved hs hf hp]
        have hne : owner history s.orderId ≠ some s.client := by
          rw [howner]
          exact fun he => hp (Option.some.inj he)
        refine h.of_original hs ?_ fun c hc => ?_
        · rw [getD_list_self, get?_unlist_of_ne hp, h.index, if_neg hne]
        · rw [get?_list_of_ne hc]
          by_cases hpc : previous.client = c
          · subst hpc
            rw [getD_unlist_self, h.index]
          · have hne : owner history s.orderId ≠ some c := by
              rw [howner]
              exact fun he => hpc (Option.some.inj he)
            rw [get?_unlist_of_ne hpc, h.index, filter_holdings hne]

end Logged

/-- **A register is a view of its history.** -/
theorem ofHistory_logged (history : List Settlement) : Logged history (ofHistory history) := by
  induction history using List.reverseRecOn with
  | nil => exact ⟨fun _ => rfl, fun _ => rfl, fun _ => rfl, List.Perm.refl _⟩
  | append_singleton l s ih =>
    rw [ofHistory_append]
    exact ih.record s

/-- A client's entries: the latest records of the names that it holds, then its repetitions. -/
theorem entriesOf_eq (history : List Settlement) (c : ClientId) :
    (ofHistory history).entriesOf c =
      (holdings history c).filterMap (latest history) ++
        (repeats history).filter (·.client = c) := by
  have h := ofHistory_logged history
  have hfind : (ofHistory history).find? = latest history := funext h.find?
  rw [entriesOf, h.index, h.duplicates, hfind]

/-! ## Lists in order of submission -/

/-- List `m` is list `l` in order of submission; settlements of one number stay as they stood. -/
structure InSubmissionOrder (l m : List Settlement) : Prop where
  perm : m.Perm l
  sorted : m.Pairwise fun a b => a.sequence ≤ b.sequence
  stable : ∀ n, m.filter (·.sequence = n) = l.filter (·.sequence = n)

theorem inSubmissionOrder_mergeSort (l : List Settlement) :
    InSubmissionOrder l (l.mergeSort bySequence) := by
  have hperm := List.mergeSort_perm l bySequence
  refine ⟨hperm, ?_, fun n => ?_⟩
  · have hs := List.pairwise_mergeSort bySequence_trans bySequence_total l
    exact hs.imp fun h => by simpa [bySequence] using h
  · -- what has number `n` is in order as it stands, so sorting keeps it
    have hsorted : (l.filter (·.sequence = n)).Pairwise fun a b => bySequence a b := by
      refine List.pairwise_of_forall_mem_list fun a ha b hb => ?_
      have ha : a.sequence = n := by simpa using List.of_mem_filter ha
      have hb : b.sequence = n := by simpa using List.of_mem_filter hb
      simp [bySequence, ha, hb]
    have hsub := List.sublist_mergeSort bySequence_trans bySequence_total hsorted
      List.filter_sublist
    have hsub := hsub.filter (·.sequence = n)
    simp only [List.filter_filter, Bool.and_self] at hsub
    exact (hsub.eq_of_length (hperm.filter _).length_eq.symm).symm

/-- **The register answers as its history does.** Under a name it finds the last original of the
name. A client's list is in order of submission, and of equal numbers first come the names that the
client holds, each with its latest record and in the order in which they last came to the client,
and then the client's repetitions in the order of record. -/
theorem answers_follow_log (history : List Settlement) :
    (∀ id, (ofHistory history).find? id = latest history id) ∧
    ∀ c, (∀ id, id ∈ holdings history c ↔ (latest history id).map (·.client) = some c) ∧
      (holdings history c).Nodup ∧
      InSubmissionOrder ((holdings history c).filterMap (latest history) ++
        (repeats history).filter (·.client = c)) ((ofHistory history).ofClient c) := by
  refine ⟨(ofHistory_logged history).find?, fun c => ⟨mem_holdings history c,
    holdings_nodup history c, ?_⟩⟩
  rw [← entriesOf_eq]
  exact inSubmissionOrder_mergeSort _

end Register

end DealDesk
