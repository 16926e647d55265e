import DealDesk.Proofs.Register.Gather
import DealDesk.Toml.Reader

/-!
# Whole numbers of a TOML document fit into 64 bits

* `Toml.Fits`, `Draft.Fits` — a value that, if it is a whole number, fits into 64 bits with a sign.
* `fits_of_readValue`, `entriesFit_of_addEntry`, `entriesFit_of_readBlocks` — what is read fits, and
  stays in the blocks of a document.
* `fits_of_finish?`, `Block.fits_of_plainTable` — nothing else becomes a whole number at the end.

`fits_of_ofText?` is the main result: the entries of a document fit.
-/

namespace DealDesk.Toml

/-- A value is no whole number, or one that fits into 64 bits with a sign. -/
def Fits : Toml → Prop
  | .whole n => -Int.pow 2 63 ≤ n ∧ n < Int.pow 2 63
  | _ => True

def Draft.Fits : Draft → Prop
  | .final v => v.Fits
  | _ => True

variable {base fuel : Nat} {negative : Bool} {cs word rest : List Char} {v : Toml} {d : Draft}

/-! ## Numbers -/

theorem fits_of_wholeOf {n : Nat} (h : wholeOf negative n = some v) : v.Fits := by
  simp only [wholeOf] at h
  generalize (if negative = true then -(n : Int) else n) = i at h
  by_cases hbounds : -Int.pow 2 63 ≤ i ∧ i < Int.pow 2 63
  · rw [if_pos hbounds] at h
    cases h
    exact hbounds
  · rw [if_neg hbounds] at h
    cases h

theorem fits_of_basedOf (h : basedOf base cs = some v) : v.Fits := by
  unfold basedOf at h
  split at h
  · exact fits_of_wholeOf h
  · cases h

theorem fits_of_decimalOf (h : decimalOf word = some v) : v.Fits := by
  simp only [decimalOf] at h
  split at h
  · exact fits_of_wholeOf h
  · cases h

theorem fits_of_realOf {digits fraction : List Char} {power : Int}
    (h : realOf negative digits fraction power = some v) : v.Fits := by
  simp only [realOf] at h
  split at h
  · cases h
    trivial
  · cases h

theorem fits_of_realOf_map {digits fraction : List Char} {power : Int}
    (h : (realOf negative digits fraction power).map (fun v => (v, cs)) = some (v, rest)) :
    v.Fits := by
  obtain ⟨_, hv, he⟩ := Option.map_eq_some_iff.1 h
  cases he
  exact fits_of_realOf hv

theorem fits_of_readPowered (h : readPowered word cs = some (v, rest)) : v.Fits := by
  simp only [readPowered, Option.bind_eq_bind, Option.bind_eq_some_iff] at h
  obtain ⟨_, _, _, _, h⟩ := h
  exact fits_of_realOf_map h

theorem fits_of_readPointed (h : readPointed word cs = some (v, rest)) : v.Fits := by
  simp only [readPointed, Option.bind_eq_bind, Option.bind_eq_some_iff] at h
  obtain ⟨_, _, h⟩ := h
  split at h
  · cases h
  · simp only [Option.bind_eq_some_iff] at h
    obtain ⟨_, _, _, _, h⟩ := h
    exact fits_of_realOf_map h

theorem fits_of_readNumber (h : readNumber word cs = some (v, rest)) : v.Fits := by
  have based : ∀ {base : Nat} {digits : List Char},
      (basedOf base digits).map (fun v => (v, cs)) = some (v, rest) → v.Fits := by
    intro base digits h
    obtain ⟨_, hv, he⟩ := Option.map_eq_some_iff.1 h
    cases he
    exact fits_of_basedOf hv
  unfold readNumber at h
  split at h
  · exact based h
  · exact based h
  · exact based h
  · split at h
    · exact fits_of_readPowered h
    · split at h
      · exact fits_of_readPointed h
      · split at h
        · cases h
          trivial
        · obtain ⟨_, hv, he⟩ := Option.map_eq_some_iff.1 h
          cases he
          exact fits_of_decimalOf hv

/-! ## Values -/

/-- A number that is read becomes a draft as it is. -/
theorem fits_of_readNumber_map
    (h : (readNumber word cs).map (fun r => (Draft.final r.1, r.2)) = some (d, rest)) :
    d.Fits := by
  obtain ⟨_, hv, he⟩ := Option.map_eq_some_iff.1 h
  cases he
  exact fits_of_readNumber hv

theorem fits_of_readWord (h : readWord word cs = some (d, rest)) : d.Fits := by
  simp only [readWord] at h
  split_ifs at h
  · cases h
    trivial
  · cases h
    trivial
  · obtain ⟨_, _, he⟩ := Option.map_eq_some_iff.1 h
    cases he
    trivial
  · exact fits_of_readNumber_map h

theorem fits_of_readScalar (h : readScalar cs = some (d, rest)) : d.Fits := by
  unfold readScalar at h
  split at h
  · split at h
    · cases h
    · exact fits_of_readNumber_map h
  · exact fits_of_readWord h

theorem fits_of_readValue (h : readValue fuel cs = some (d, rest)) : d.Fits := by
  cases fuel with
  | zero => cases h
  | succ fuel =>
    simp only [readValue] at h
    split at h
    · cases h
    · obtain ⟨_, _, he⟩ := Option.map_eq_some_iff.1 h
      cases he
      trivial
    · split at h
      · cases h
        trivial
      · obtain ⟨_, _, he⟩ := Option.map_eq_some_iff.1 h
        cases he
        trivial
    · split at h
      · obtain ⟨_, _, he⟩ := Option.map_eq_some_iff.1 h
        cases he
        trivial
      · exact fits_of_readScalar h

/-! ## Entries -/

/-- The entries of a table of drafts fit. -/
def EntriesFit (t : List (String × Draft)) : Prop := ∀ e ∈ t, e.2.Fits

theorem EntriesFit.nil : EntriesFit [] := List.forall_mem_nil _

theorem entriesFit_of_addEntry {path : List String} {t t' : List (String × Draft)} (hd : d.Fits)
    (ht : EntriesFit t) (h : Draft.addEntry d path t = some t') : EntriesFit t' := by
  have put : ∀ (key : String) (inner : List (String × Draft)),
      EntriesFit (Table.put t key (.dotted inner)) := by
    intro key inner e he
    rcases Table.mem_put he with he | rfl
    · exact ht e he
    · trivial
  unfold Draft.addEntry at h
  split at h
  · cases h
  · cases h
    intro e he
    rcases List.mem_append.1 he with he | he
    · exact ht e he
    · rw [List.mem_singleton.1 he]
      exact hd
  · split at h
    · obtain ⟨inner, _, rfl⟩ := Option.map_eq_some_iff.1 h
      exact put _ inner
    · obtain ⟨inner, _, rfl⟩ := Option.map_eq_some_iff.1 h
      exact put _ inner
    · cases h

/-- A line that is an entry has a value that fits. -/
theorem fits_of_readLine {key : List String} (h : readLine cs = some (.entry key d, rest)) :
    d.Fits := by
  unfold readLine at h
  split at h
  · simp only [readHeader, Option.bind_eq_bind, Option.bind_eq_some_iff] at h
    obtain ⟨_, _, _, _, h⟩ := h
    split_ifs at h
    · simp only [Option.bind_eq_some_iff] at h
      obtain ⟨_, _, _, _, he⟩ := h
      cases he
    · simp only [Option.bind_eq_some_iff] at h
      obtain ⟨_, _, _, _, he⟩ := h
      cases he
  · simp only [readEntry, Option.bind_eq_bind, Option.bind_eq_some_iff] at h
    obtain ⟨_, _, _, _, _, hv, _, _, he⟩ := h
    cases he
    exact fits_of_readValue hv

theorem entriesFit_of_readBlocks {block : Block} {blocks : List Block}
    (hb : EntriesFit block.entries) (h : readBlocks fuel block cs = some blocks) :
    ∀ b ∈ blocks, EntriesFit b.entries := by
  induction fuel generalizing block cs blocks with
  | zero => cases h
  | succ fuel ih =>
    unfold readBlocks at h
    split at h
    · cases h
      exact List.forall_mem_singleton.2 hb
    · simp only [Option.bind_eq_bind, Option.bind_eq_some_iff] at h
      obtain ⟨⟨line, rest⟩, hline, h⟩ := h
      cases line with
      | header element path =>
        simp only [Option.bind_eq_some_iff] at h
        obtain ⟨more, hmore, he⟩ := h
        cases he
        exact List.forall_mem_cons.2 ⟨hb, ih .nil hmore⟩
      | entry key d =>
        simp only [Option.bind_eq_some_iff] at h
        obtain ⟨entries, hentries, h⟩ := h
        exact ih (entriesFit_of_addEntry (fits_of_readLine hline) hb hentries) h

/-! ## Documents -/

theorem fits_of_momentText? (h : Draft.momentText? cs = some v) : v.Fits := by
  obtain ⟨_, _, rfl⟩ := Option.map_eq_some_iff.1 h
  trivial

theorem fits_of_moment? (h : d.moment? = some v) : v.Fits := by
  unfold Draft.moment? at h
  split at h
  · exact fits_of_momentText? h
  · cases h

theorem fits_of_finishTable {t : List (String × Draft)} (h : Draft.finishTable t = some v) :
    v.Fits := by
  unfold Draft.finishTable at h
  split at h
  · cases h
    trivial
  · split at h
    · exact fits_of_moment? h
    · simp only [Option.bind_eq_bind, Option.bind_eq_some_iff] at h
      obtain ⟨_, _, _, _, h⟩ := h
      obtain ⟨_, _, rfl⟩ := Option.map_eq_some_iff.1 h
      trivial

/-- Finishing a draft makes no whole number. -/
theorem fits_of_finish? (hd : d.Fits) (h : d.finish? = some v) : v.Fits := by
  cases d with
  | final v' =>
    rw [Draft.finish?] at h
    cases h
    exact hd
  | moment cs => exact fits_of_momentText? (by rwa [Draft.finish?] at h)
  | list items =>
    rw [Draft.finish?] at h
    obtain ⟨_, _, rfl⟩ := Option.map_eq_some_iff.1 h
    trivial
  | table t => exact fits_of_finishTable (by rwa [Draft.finish?] at h)
  | dotted t => exact fits_of_finishTable (by rwa [Draft.finish?] at h)

theorem fits_of_finishEntries {t : List (String × Draft)} {entries : List (String × Toml)}
    (ht : EntriesFit t) (h : Draft.finishEntries t = some entries) : ∀ e ∈ entries, e.2.Fits := by
  induction t generalizing entries with
  | nil =>
    rw [Draft.finishEntries] at h
    cases h
    exact List.forall_mem_nil _
  | cons e t ih =>
    obtain ⟨key, d⟩ := e
    obtain ⟨hd, ht⟩ := List.forall_mem_cons.1 ht
    simp only [Draft.finishEntries, Option.bind_eq_bind, Option.bind_eq_some_iff] at h
    obtain ⟨v, hv, more, hmore, he⟩ := h
    cases he
    exact List.forall_mem_cons.2 ⟨fits_of_finish? hd hv, ih ht hmore⟩

namespace Block

variable {blocks : List Block}

/-- The blocks inside a table make tables and lists. -/
theorem fits_of_tableOf {depth : Nat} (h : tableOf depth blocks = some v) : v.Fits := by
  cases depth with
  | zero => cases h
  | succ depth =>
    unfold tableOf at h
    split at h
    · exact fits_of_moment? h
    · cases h
    · obtain ⟨_, _, rfl⟩ := Option.map_eq_some_iff.1 h
      trivial

theorem fits_of_valueOf {depth : Nat} (h : valueOf (tableOf depth) blocks = some v) :
    v.Fits := by
  unfold valueOf at h
  split at h
  · obtain ⟨_, _, rfl⟩ := Option.map_eq_some_iff.1 h
    trivial
  · exact fits_of_tableOf h

theorem entriesFit_of_ownEntries? {own : List (String × Draft)}
    (hblocks : ∀ b ∈ blocks, EntriesFit b.entries) (h : ownEntries? blocks = some own) :
    EntriesFit own := by
  unfold ownEntries? at h
  split at h
  · cases h
    exact List.forall_mem_nil _
  · rename_i path entries hown
    cases h
    have hmem : (⟨path, false, own⟩ : Block) ∈ blocks.filter fun b => b.path.isEmpty :=
      hown ▸ List.mem_singleton_self _
    exact hblocks _ (List.mem_filter.1 hmem).1
  · cases h

/-- What a map over a list gives comes from its members. -/
theorem exists_of_mem_mapM {α γ : Type} {f : α → Option γ} {l : List α} {l' : List γ} {c : γ}
    (h : l.mapM f = some l') (hc : c ∈ l') : ∃ a, f a = some c := by
  induction l generalizing l' with
  | nil =>
    cases h
    cases hc
  | cons a l ih =>
    simp only [List.mapM_cons, Option.bind_eq_bind, Option.bind_eq_some_iff] at h
    obtain ⟨c', hc', more, hmore, he⟩ := h
    cases he
    rcases List.mem_cons.1 hc with rfl | hc
    · exact ⟨a, hc'⟩
    · exact ih hmore hc

theorem fits_of_plainTable {depth : Nat} {entries : List (String × Toml)}
    (hblocks : ∀ b ∈ blocks, EntriesFit b.entries)
    (h : plainTable (valueOf (tableOf depth)) blocks = some entries) :
    ∀ e ∈ entries, e.2.Fits := by
  unfold plainTable at h
  split at h
  · cases h
  · simp only [Option.bind_eq_bind, Option.bind_eq_some_iff] at h
    obtain ⟨own, hown, mine, hmine, inner, hinner, h⟩ := h
    unfold Draft.distinct? at h
    split at h
    · cases h
      intro e he
      rcases List.mem_append.1 he with he | he
      · exact fits_of_finishEntries (entriesFit_of_ownEntries? hblocks hown) hmine e he
      · obtain ⟨key, hkey⟩ := exists_of_mem_mapM hinner he
        obtain ⟨v, hv, rfl⟩ := Option.map_eq_some_iff.1 hkey
        exact fits_of_valueOf hv
    · cases h

end Block

/-- **The whole numbers of a document fit into 64 bits.** -/
theorem fits_of_ofText? {text : String} {entries : List (String × Toml)}
    (h : ofText? text = some entries) : ∀ e ∈ entries, e.2.Fits := by
  obtain ⟨blocks, hblocks, h⟩ := Option.bind_eq_some_iff.1 h
  unfold Block.document at h
  split at h
  · obtain ⟨_, _, rfl⟩ := Option.map_eq_some_iff.1 h
    exact List.forall_mem_nil _
  · exact Block.fits_of_plainTable (entriesFit_of_readBlocks .nil hblocks) h

end DealDesk.Toml
