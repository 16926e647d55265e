import DealDesk.Proofs.Decimal.Finite
import DealDesk.Proofs.Json.Written
import DealDesk.Proofs.Register.Gather
import DealDesk.Record.Shape

/-!
# Records read back from what presents them

* `Datum.Fits` — the datum is one that a field of a kind can hold.
* `ReadsBack` — the decimal that is written for a double reads back as that double.
* `Presents` — a tree says what the fields hold: an object with its members in any order, with
  others among them, without those that hold what they hold when missing; or an array.
* `Shape.decode_of_presents` — such a tree is decoded to the data.
* `Shape.decode_finite` — whatever is decoded holds finite doubles only.
-/

namespace DealDesk

open Json

/-! ## Passing over values -/

namespace Json

theorem skipItems_eq_none {items : List Json} (h : ∀ j ∈ items, skipFault j = none) :
    skipItems items = none := by
  induction items with
  | nil => rw [skipItems]
  | cons j items ih =>
    rw [skipItems, h j List.mem_cons_self, Option.none_or]
    exact ih fun i hi => h i (List.mem_cons_of_mem _ hi)

theorem skipMembers_cons {m : Key × Json} (hkey : ∀ stop, m.1 ≠ .stopped stop)
    (members : List (Key × Json)) :
    skipMembers (m :: members) = (skipFault m.2).or (skipMembers members) := by
  obtain ⟨key, j⟩ := m
  cases key with
  | text s => rw [skipMembers]; nofun
  | unpaired => rw [skipMembers]; nofun
  | stopped stop => exact absurd rfl (hkey stop)

theorem skipMembers_eq_none_iff {members : List (Key × Json)}
    (hkey : ∀ m ∈ members, ∀ stop, m.1 ≠ .stopped stop) :
    skipMembers members = none ↔ ∀ m ∈ members, skipFault m.2 = none := by
  induction members with
  | nil => simp [skipMembers]
  | cons m members ih =>
    rw [skipMembers_cons (hkey m List.mem_cons_self), Option.or_eq_none_iff,
      ih fun n hn => hkey n (List.mem_cons_of_mem _ hn), List.forall_mem_cons]

theorem KeySpells.ne_stopped {key : Key} {name : List Char} (h : KeySpells key name)
    (stop : Stop) : key ≠ .stopped stop := by
  cases h with
  | @quoted before cs after s paired => cases paired <;> nofun

/-- **Any value that is spelled is passed over.** -/
theorem Spells.skipFault {j : Json} {cs : List Char} (h : Spells j cs) : skipFault j = none := by
  induction h with
  | pad hbefore h hafter ih => exact ih
  | items hne h ih =>
    rw [Json.skipFault, skipItems_eq_none (List.forall_mem_map.mpr ih)]
    rfl
  | members hne hkey h ih =>
    have hkeys : ∀ m ∈ List.map Member.pair _, ∀ stop, m.1 ≠ .stopped stop :=
      List.forall_mem_map.mpr fun m hm => (hkey m hm).ne_stopped
    rw [Json.skipFault, (skipMembers_eq_none_iff hkeys).mpr (List.forall_mem_map.mpr ih)]
    rfl
  | noItems => rw [Json.skipFault, skipItems]; rfl
  | noMembers => rw [Json.skipFault, skipMembers]; rfl
  | _ => rw [Json.skipFault] <;> nofun

/-- What an object that is passed over has in it is passed over. -/
theorem skipFault_of_mem {members : List (String × Json)}
    (h : skipFault (ofMembers members) = none) : ∀ m ∈ members, skipFault m.2 = none := by
  have hkeys : ∀ m ∈ members.map fun m => (Key.text m.1, m.2), ∀ stop, m.1 ≠ .stopped stop :=
    List.forall_mem_map.mpr fun m _ stop he => by cases he
  rw [ofMembers_eq, skipFault, Option.or_eq_none_iff, skipMembers_eq_none_iff hkeys] at h
  exact List.forall_mem_map.mp h.1

end Json

/-! ## What fields hold -/

/-- The decimal that is written for the double reads back as it. -/
def ReadsBack (x : Float) : Prop := ∀ n, Numeral.ofFloat? x = some n → n.toFloat = x

namespace Datum

/-- The doubles in a datum. -/
def floats : Datum → List Float
  | .float x => [x]
  | .present d => d.floats
  | _ => []

/-- No double in the datum is an infinity or no number. -/
def Finite (d : Datum) : Prop := ∀ x ∈ d.floats, x.isFinite = true

/-- The datum is one that a field of the kind can hold. -/
def Fits : Kind → Datum → Prop
  | .float, .float _ => True
  | .int low high _, .int n => (low ≤ n ∧ n ≤ high) ∧ -Int.pow 2 63 ≤ n ∧ n < Int.pow 2 64
  | .text, .text _ => True
  | .flag, .flag _ => True
  | .choice names, .choice name => name ∈ names
  | .optional _, .absent => True
  | .optional k, .present d => (∀ k', k ≠ .optional k') ∧ Fits k d
  | _, _ => False

end Datum

theorem Numeral.toInt?_ofInt {n : Int} (hlow : -Int.pow 2 63 ≤ n) (hhigh : n < Int.pow 2 64) :
    (Numeral.ofInt n).toInt? = some n := by
  unfold Numeral.ofInt
  by_cases hn : n < 0
  · have hrange : 0 < n.natAbs ∧ n.natAbs ≤ Nat.pow 2 63 := by
      change -(2 ^ 63 : Int) ≤ n at hlow
      show 0 < n.natAbs ∧ n.natAbs ≤ 2 ^ 63
      omega
    rw [decide_eq_true hn, toInt?, if_pos hrange]
    exact congrArg some (by omega)
  · have hrange : n.natAbs < Nat.pow 2 64 := by
      change n < (2 ^ 64 : Int) at hhigh
      show n.natAbs < 2 ^ 64
      omega
    rw [decide_eq_false hn, toInt?, if_pos hrange]
    exact congrArg some (by omega)

theorem floatJson_eq {x : Float} (h : x.isFinite = true) :
    ∃ n, Numeral.ofFloat? x = some n ∧ floatJson x = .number n := by
  obtain ⟨negative, value, hn, -⟩ := Numeral.ofFloat?_of_isFinite h
  exact ⟨_, hn, by rw [floatJson, hn]⟩

theorem finite_toFloat {x : Float} {n : Numeral} (hfinite : x.isFinite = true)
    (h : n.toFloat = x) : Json.finite n = .ok x := by
  simp only [Json.finite, h, isInf_of_isFinite hfinite, Bool.false_eq_true, if_false]

/-- Only a field that may be absent takes a `null`. -/
theorem Kind.decode_null {k : Kind} (hk : ∀ k', k ≠ .optional k') (d : Datum) :
    k.decode .null ≠ .ok d := by
  cases k with
  | optional k => exact absurd rfl (hk k)
  | choice names => nofun
  | _ => nofun

/-- **A datum that fits is read back from its form.** -/
theorem Datum.Fits.decode_toJson {k : Kind} {d : Datum} (h : d.Fits k)
    (hfinite : d.Finite) (hback : ∀ x ∈ d.floats, ReadsBack x) :
    k.decode (d.toJson floatJson) = .ok d := by
  fun_induction Datum.Fits k d with
  | case1 x =>
    have hx : x ∈ (Datum.float x).floats := List.mem_singleton_self x
    obtain ⟨n, hn, hjson⟩ := floatJson_eq (hfinite x hx)
    rw [toJson, hjson, Kind.decode, finite_toFloat (hfinite x hx) (hback x hx n hn)]
    rfl
  | case2 low high name n =>
    rw [toJson, Kind.decode, Numeral.toInt?_ofInt h.2.1 h.2.2]
    exact if_pos h.1
  | case3 s => rw [toJson, Kind.decode]
  | case4 b => rw [toJson, Kind.decode]
  | case5 names name =>
    rw [toJson, Kind.decode, decodeVariant]
    exact if_pos h
  | case6 k => rw [toJson, Kind.decode]
  | case7 k d ih =>
    have hd := ih h.2 hfinite hback
    rw [toJson, Kind.decode, hd]
    · rfl
    · intro hnull
      rw [hnull] at hd
      exact Kind.decode_null h.1 d hd
  | case8 => exact h.elim

/-! ## Trees that present data -/

/-- The fields with what they hold. -/
abbrev Slot := Field × Datum

namespace Slot

def member (p : Slot) : String × Json := (p.1.name, p.2.toJson floatJson)

/-- What a field holds is what a field of its kind can hold. -/
structure Sound (p : Slot) : Prop where
  fits : p.2.Fits p.1.kind
  finite : p.2.Finite
  back : ∀ x ∈ p.2.floats, ReadsBack x

theorem Sound.decode {p : Slot} (h : p.Sound) :
    p.1.kind.decode (p.2.toJson floatJson) = .ok p.2 :=
  h.fits.decode_toJson h.finite h.back

end Slot

/-- The tree says what the fields hold. -/
inductive Presents (slots : List Slot) : Json → Prop
  /-- The members come in any order, and members of other names among them. A field may be left
  out that holds what it holds when it is missing. -/
  | object {members strange : List (String × Json)} {left : List String}
      (hleft : ∀ p ∈ slots, p.1.name ∈ left → p.1.ifMissing = some p.2)
      (hstrange : ∀ m ∈ strange, ∀ p ∈ slots, p.1.name ≠ m.1)
      (hmembers : members.Perm
        ((slots.filter fun p => p.1.name ∉ left).map Slot.member ++ strange)) :
      Presents slots (ofMembers members)
  /-- The fields come in order, without their names. -/
  | array : Presents slots (ofItems (slots.map fun p => p.2.toJson floatJson))

namespace Shape

variable {slots : List Slot}

theorem find?_of_mem (hnames : (slots.map fun p => p.1.name).Nodup) {p : Slot}
    (hp : p ∈ slots) : slots.find? (fun p' => p'.1.name = p.1.name) = some p := by
  cases hfind : slots.find? fun p' => p'.1.name = p.1.name with
  | none => exact absurd (decide_eq_true rfl) (List.find?_eq_none.mp hfind p hp)
  | some p' =>
    have hname : p'.1.name = p.1.name := by simpa using List.find?_some hfind
    exact congrArg some
      (List.inj_on_of_nodup_map hnames (List.mem_of_find?_eq_some hfind) hp hname)

theorem find?_of_strange {name : String} (h : ∀ p ∈ slots, p.1.name ≠ name) :
    slots.find? (fun p => p.1.name = name) = none :=
  List.find?_eq_none.mpr fun p hp => by simpa using h p hp

theorem find?_fields (slots : List Slot) (name : String) :
    (slots.map Prod.fst).find? (fun f => f.name = name) =
      (slots.find? fun p => p.1.name = name).map Prod.fst := by
  rw [List.find?_map]
  rfl

/-- What a member says of a field. -/
def reading (slots : List Slot) (m : String × Json) : Option (String × Datum) :=
  (slots.find? fun p => p.1.name = m.1).map fun p => (p.1.name, p.2)

theorem reading_member (hnames : (slots.map fun p => p.1.name).Nodup) {p : Slot}
    (hp : p ∈ slots) : reading slots p.member = some (p.1.name, p.2) := by
  rw [reading, Slot.member, find?_of_mem hnames hp]
  rfl

theorem reading_strange {m : String × Json} (h : ∀ p ∈ slots, p.1.name ≠ m.1) :
    reading slots m = none := by
  rw [reading, find?_of_strange h]
  rfl

def readings (slots : List Slot) (members : List (String × Json)) : Table String Datum :=
  members.filterMap (reading slots)

/-- Members that say what the fields hold, and members of other names, are read in their order. -/
theorem decodeMembers_ok (hnames : (slots.map fun p => p.1.name).Nodup)
    (hsound : ∀ p ∈ slots, p.Sound) {members : List (String × Json)}
    (hmember : ∀ m ∈ members, (∃ p ∈ slots, m = p.member) ∨
      (∀ p ∈ slots, p.1.name ≠ m.1) ∧ skipFault m.2 = none)
    {got : Table String Datum}
    (hfresh : (got ++ readings slots members).keys.Nodup) :
    decodeMembers (slots.map Prod.fst) none got (members.map fun m => (.text m.1, m.2)) =
      .ok (got ++ readings slots members) := by
  induction members generalizing got with
  | nil => rw [readings, List.filterMap_nil, List.append_nil]; rfl
  | cons m members ih =>
    obtain ⟨hm, hrest⟩ := List.forall_mem_cons.mp hmember
    rcases hm with ⟨p, hp, rfl⟩ | ⟨hstrange, hskip⟩
    · rw [readings, List.filterMap_cons_some (reading_member hnames hp)] at hfresh ⊢
      have hnew : p.1.name ∉ got.keys := by
        rw [Table.keys, List.map_append, List.nodup_append] at hfresh
        exact fun hmem => hfresh.2.2 _ hmem _ List.mem_cons_self rfl
      rw [List.append_cons] at hfresh ⊢
      simp only [List.map_cons, Slot.member, decodeMembers, find?_fields,
        find?_of_mem hnames hp, Option.map_some, Table.get?_eq_none hnew, Option.isSome_none,
        Bool.false_eq_true, if_false, (hsound p hp).decode, Table.put_of_not_mem _ hnew]
      exact ih hrest hfresh
    · rw [readings, List.filterMap_cons_none (reading_strange hstrange)] at hfresh ⊢
      simp only [List.map_cons, decodeMembers, find?_fields, find?_of_strange hstrange,
        Option.map_none, hskip]
      exact ih hrest hfresh

theorem collect_ok {got : Table String Datum}
    (h : ∀ p ∈ slots, (got.get? p.1.name).or p.1.ifMissing = some p.2) :
    collect got (slots.map Prod.fst) = .ok (slots.map Prod.snd) := by
  induction slots with
  | nil => rfl
  | cons p slots ih =>
    simp only [List.map_cons, collect, h p List.mem_cons_self,
      ih fun p' hp' => h p' (List.mem_cons_of_mem _ hp')]
    rfl

theorem decodeItems_ok (hsound : ∀ p ∈ slots, p.Sound) (what : String) (n : Nat) :
    decodeItems what none n (slots.map Prod.fst) (slots.map fun p => p.2.toJson floatJson) =
      .ok (slots.map Prod.snd) := by
  induction slots generalizing n with
  | nil => rfl
  | cons p slots ih =>
    simp only [List.map_cons, decodeItems, (hsound p List.mem_cons_self).decode,
      ih (fun p' hp' => hsound p' (List.mem_cons_of_mem _ hp'))]
    rfl

/-- **A tree that says what the fields hold is decoded to that.** -/
theorem decode_of_presents {s : Shape} (hfields : s.fields = slots.map Prod.fst)
    (hnames : (slots.map fun p => p.1.name).Nodup) (hsound : ∀ p ∈ slots, p.Sound) {j : Json}
    (hj : Presents slots j) (hskip : skipFault j = none) :
    s.decode j = .ok (slots.map Prod.snd) := by
  cases hj with
  | @object members strange left hleft hstrange hmembers =>
    have hmember : ∀ m ∈ members, (∃ p ∈ slots, m = p.member) ∨
        (∀ p ∈ slots, p.1.name ≠ m.1) ∧ skipFault m.2 = none := by
      intro m hm
      rcases List.mem_append.mp (hmembers.mem_iff.mp hm) with hkept | hm'
      · obtain ⟨p, hp, rfl⟩ := List.mem_map.mp hkept
        exact .inl ⟨p, List.mem_of_mem_filter hp, rfl⟩
      · exact .inr ⟨hstrange m hm', skipFault_of_mem hskip m hm⟩
    have hread : (readings slots members).Perm
        ((slots.filter fun p => p.1.name ∉ left).map fun p => (p.1.name, p.2)) := by
      refine (hmembers.filterMap _).trans (List.Perm.of_eq ?_)
      rw [List.filterMap_append, List.filterMap_map,
        List.filterMap_eq_nil_iff.mpr fun m hm => reading_strange (hstrange m hm),
        List.append_nil, ← List.filterMap_eq_map]
      exact List.filterMap_congr fun p hp => reading_member hnames (List.mem_of_mem_filter hp)
    have hkeys : (readings slots members).keys.Nodup := by
      refine (hread.map Prod.fst).nodup_iff.mpr ?_
      rw [List.map_map]
      exact hnames.sublist ((List.filter_sublist).map _)
    have hlookup : ∀ p ∈ slots,
        ((readings slots members).get? p.1.name).or p.1.ifMissing = some p.2 := by
      intro p hp
      by_cases hout : p.1.name ∈ left
      · have hnone : p.1.name ∉ (readings slots members).keys := by
          intro hmem
          have hkept := (hread.map Prod.fst).mem_iff.mp hmem
          rw [List.map_map, List.mem_map] at hkept
          obtain ⟨p', hp', hname⟩ := hkept
          have hin : p'.1.name ∉ left := by simpa using List.of_mem_filter hp'
          have hname : p'.1.name = p.1.name := hname
          exact hin (hname ▸ hout)
        rw [Table.get?_eq_none hnone, Option.none_or, hleft p hp hout]
      · have hmem : (p.1.name, p.2) ∈ readings slots members :=
          hread.mem_iff.mpr (List.mem_map.mpr ⟨p, by simp [hp, hout], rfl⟩)
        rw [(Table.mem_iff_get? hkeys).mp hmem, Option.some_or]
    rw [ofMembers_eq, decode, hfields, decodeMembers_ok hnames hsound hmember hkeys]
    exact collect_ok hlookup
  | array =>
    rw [ofItems, decode, hfields]
    exact decodeItems_ok hsound _ 0

/-- What is written for the data presents them. -/
theorem presents_encode (s : Shape) (data : List Datum) :
    Presents (s.fields.zip data) (s.encode floatJson data) := by
  refine @Presents.object _ _ [] [] (fun _ _ => nofun) nofun (List.Perm.of_eq ?_)
  simp [Slot.member]

end Shape

/-! ## What is written is spelled -/

theorem spelled_floatJson (x : Float) : Spelled (floatJson x) := by
  unfold floatJson
  cases hx : Numeral.ofFloat? x with
  | none => exact Spells.null
  | some n =>
    dsimp only
    unfold Numeral.ofFloat? at hx
    split at hx
    · cases hx
      exact spelled_decimal _ (.inl rfl)
    · cases hx
      exact spelled_decimal _ (Decimal.normal_isNormal _)
    · cases hx

theorem Datum.spelled_toJson (d : Datum) : Spelled (d.toJson floatJson) := by
  induction d with
  | float x => exact spelled_floatJson x
  | int n => exact spelled_whole _ _
  | text s => exact spelled_text s
  | flag b => cases b; exacts [Spells.false, Spells.true]
  | choice name => exact spelled_text name
  | absent => exact Spells.null
  | present d ih => exact ih

/-- **What is written for data is spelled.** -/
theorem Shape.spelled_encode (s : Shape) (data : List Datum) :
    Spelled (s.encode floatJson data) :=
  spelled_ofMembers (List.forall_mem_map.mpr fun p _ => p.2.spelled_toJson)

/-! ## What is decoded -/

/-- Only the content of a variant that is known is asked for. -/
theorem Json.decodeVariant_ok {α : Type} {names : List String}
    {bare : String → Except DecodeError α} {content : String → Json → Except DecodeError α}
    {j : Json} {a : α} (h : j.decodeVariant names bare content = .ok a) :
    (∃ name, bare name = .ok a) ∨ ∃ name v, content name v = .ok a := by
  unfold decodeVariant at h
  split at h
  · split at h
    · exact .inl ⟨_, h⟩
    · cases h
  · split at h
    · cases h
    · cases h
    · cases h
    · split at h
      · split at h
        · cases h
        · rename_i hcontent
          refine .inr ⟨_, _, hcontent.trans ?_⟩
          split at h
          · cases h
          · split at h
            · cases h
            · exact h
      · cases h
  · cases h
  · cases h
  · cases h

theorem Json.mismatch_ne_ok {α : Type} {j : Json} {expected : String} {a : α} :
    (j.mismatch expected : Except DecodeError α) ≠ .ok a := by
  unfold mismatch
  split <;> nofun

theorem noContent_finite {name : String} {j : Json} {d : Datum} (h : noContent name j = .ok d) :
    d.Finite := by
  unfold noContent at h
  split at h
  · cases h
    nofun
  · exact absurd h mismatch_ne_ok

theorem Json.finite_ok {n : Numeral} {x : Float} (h : Json.finite n = .ok x) :
    x.isFinite = true := by
  unfold Json.finite at h
  dsimp only at h
  split at h
  · cases h
  · rename_i hinf
    cases h
    exact Numeral.isFinite_toFloat (Bool.eq_false_iff.mpr hinf)

/-- **What a field is decoded to holds finite doubles only.** -/
theorem Kind.decode_finite {k : Kind} {j : Json} {d : Datum} (h : k.decode j = .ok d) :
    d.Finite := by
  fun_induction Kind.decode k j generalizing d with
  | case1 n =>
    cases hx : Json.finite n with
    | error e => rw [hx] at h; cases h
    | ok x =>
      rw [hx] at h
      cases h
      intro y hy
      rw [List.mem_singleton.mp hy]
      exact Json.finite_ok hx
  | case2 low high name n i hi hrange => cases h; nofun
  | case3 => cases h
  | case4 => exact absurd h mismatch_ne_ok
  | case5 => cases h; nofun
  | case6 => cases h; nofun
  | case7 names j =>
    rcases decodeVariant_ok h with ⟨name, hname⟩ | ⟨name, v, hv⟩
    · cases hname
      nofun
    · exact noContent_finite hv
  | case8 => cases h; nofun
  | case9 k j hj ih =>
    cases hd : k.decode j with
    | error e => rw [hd] at h; cases h
    | ok d' =>
      rw [hd] at h
      cases h
      have hfinite := ih hd
      exact hfinite
  | case10 => exact absurd h mismatch_ne_ok

/-- What is held by a field that is missing or cut off is no double. -/
def Field.Settled (f : Field) : Prop :=
  ∀ d, f.ifMissing = some d ∨ f.ifShort = some d → d.floats = []

theorem Field.Settled.finite {f : Field} (h : f.Settled) {d : Datum}
    (hd : f.ifMissing = some d ∨ f.ifShort = some d) : d.Finite := fun x hx => by
  rw [h d hd] at hx
  cases hx

namespace Shape

theorem decodeMembers_finite {fields : List Field} {stop : Option Stop}
    {members : List (Key × Json)} {got got' : Table String Datum}
    (hgot : ∀ p ∈ got, p.2.Finite) (h : decodeMembers fields stop got members = .ok got') :
    ∀ p ∈ got', p.2.Finite := by
  fun_induction decodeMembers fields stop got members with
  | case1 => cases h
  | case2 => cases h; exact hgot
  | case3 => cases h
  | case4 => cases h
  | case5 => cases h
  | case6 got key v rest hf hskip ih => exact ih hgot h
  | case7 => cases h
  | case8 => cases h
  | case9 got key v rest f hf hnone d hd ih =>
    refine ih (fun p hp => ?_) h
    rcases Table.mem_put hp with hp | rfl
    · exact hgot p hp
    · exact Kind.decode_finite hd

theorem finite_of_map_cons {more : Except DecodeError (List Datum)} {d : Datum}
    {data : List Datum} (h : more.map (d :: ·) = .ok data) (hd : d.Finite)
    (hmore : ∀ {ds}, more = .ok ds → ∀ d ∈ ds, d.Finite) : ∀ d ∈ data, d.Finite := by
  cases more with
  | error e => cases h
  | ok ds =>
    cases h
    exact List.forall_mem_cons.mpr ⟨hd, hmore rfl⟩

theorem collect_finite {got : Table String Datum} (hgot : ∀ p ∈ got, p.2.Finite)
    {fields : List Field} (hfields : ∀ f ∈ fields, f.Settled) {data : List Datum}
    (h : collect got fields = .ok data) : ∀ d ∈ data, d.Finite := by
  induction fields generalizing data with
  | nil =>
    cases h
    nofun
  | cons f fields ih =>
    obtain ⟨hf, hrest⟩ := List.forall_mem_cons.mp hfields
    unfold collect at h
    split at h
    · cases h
    · next d hd =>
      refine finite_of_map_cons h ?_ (ih hrest)
      rcases Option.or_eq_some_iff.mp hd with hd | ⟨-, hd⟩
      · exact hgot _ (Table.mem_of_get? hd)
      · exact hf.finite (.inl hd)

theorem decodeItems_finite {what : String} {stop : Option Stop} {n : Nat} {fields : List Field}
    (hfields : ∀ f ∈ fields, f.Settled) {items : List Json} {data : List Datum}
    (h : decodeItems what stop n fields items = .ok data) : ∀ d ∈ data, d.Finite := by
  fun_induction decodeItems what stop n fields items generalizing data with
  | case1 => cases h
  | case2 => cases h; nofun
  | case3 => cases h
  | case4 => cases h
  | case5 n f fields d hd hstop ih =>
    subst hstop
    obtain ⟨hf, hrest⟩ := List.forall_mem_cons.mp hfields
    exact finite_of_map_cons h (hf.finite (.inr hd)) (ih hrest)
  | case6 => cases h
  | case7 => cases h
  | case8 n f fields j items d hd ih =>
    obtain ⟨hf, hrest⟩ := List.forall_mem_cons.mp hfields
    exact finite_of_map_cons h (Kind.decode_finite hd) (ih hrest)

/-- **Whatever is decoded holds finite doubles only.** -/
theorem decode_finite {s : Shape} (hfields : ∀ f ∈ s.fields, f.Settled) {j : Json}
    {data : List Datum} (h : s.decode j = .ok data) : ∀ d ∈ data, d.Finite := by
  unfold decode at h
  split at h
  · split at h
    · cases h
    · next got hgot => exact collect_finite (decodeMembers_finite (by simp) hgot) hfields h
  · exact decodeItems_finite hfields h
  · exact absurd h mismatch_ne_ok

end Shape

end DealDesk
