import DealDesk.Proofs.Json.Lexemes
import DealDesk.Text.Pieces
import Mathlib.Data.List.DropRight

/-!
# How JSON may be spelled

* `Spells` — a text is a spelling of a tree, with blanks wherever they may be.
* `Reads` — a text is read as a tree wherever it can stand.
* `itemThenMore_joined`, `memberThenMore_joined` — items and members are read up to their bracket.

`Spells.ofText` is the main result: reading undoes any spelling.
-/

namespace DealDesk.Json

variable {cs more rest : List Char} {c : Char} {fuel : Nat}

/-! ## Values -/

def keyOf (paired : Bool) (s : List Char) : Key :=
  if paired then .text (String.ofList s) else .unpaired

/-- A key between quotes, with the blanks around it. -/
inductive KeySpells : Key → List Char → Prop
  | quoted {before cs after s : List Char} {paired : Bool} (hbefore : Blanks before)
      (h : Chars paired s cs) (hafter : Blanks after) :
      KeySpells (keyOf paired s) (before ++ '"' :: (cs ++ '"' :: after))

/-- A member and how it is written. -/
structure Member where
  key : Key
  value : Json
  /-- What stands before the colon. -/
  name : List Char
  /-- What stands after it. -/
  body : List Char

def Member.pair (m : Member) : Key × Json := (m.key, m.value)

def Member.text (m : Member) : List Char := m.name ++ ':' :: m.body

/-- `Spells j cs`: the text `cs` says `j`. -/
inductive Spells : Json → List Char → Prop
  | pad {before cs after : List Char} {j : Json} (hbefore : Blanks before) (h : Spells j cs)
      (hafter : Blanks after) : Spells j (before ++ (cs ++ after))
  | null : Spells .null ['n', 'u', 'l', 'l']
  | true : Spells (.bool true) ['t', 'r', 'u', 'e']
  | false : Spells (.bool false) ['f', 'a', 'l', 's', 'e']
  | number {f : Figure} (hf : f.Sound) : Spells (.number f.numeral) f.text
  | text {s cs : List Char} (h : Chars true s cs) :
      Spells (.text (String.ofList s)) ('"' :: (cs ++ ['"']))
  | unpaired {s cs : List Char} (h : Chars false s cs) : Spells .unpaired ('"' :: (cs ++ ['"']))
  | noItems {blanks : List Char} (h : Blanks blanks) :
      Spells (.array [] none) ('[' :: (blanks ++ [']']))
  | items {items : List (Json × List Char)} (hne : items ≠ [])
      (h : ∀ item ∈ items, Spells item.1 item.2) :
      Spells (.array (items.map Prod.fst) none)
        ('[' :: (Text.joined ',' (items.map Prod.snd) ++ [']']))
  | noMembers {blanks : List Char} (h : Blanks blanks) :
      Spells (.object [] none) ('{' :: (blanks ++ ['}']))
  | members {members : List Member} (hne : members ≠ [])
      (hkey : ∀ m ∈ members, KeySpells m.key m.name)
      (h : ∀ m ∈ members, Spells m.value m.body) :
      Spells (.object (members.map Member.pair) none)
        ('{' :: (Text.joined ',' (members.map Member.text) ++ ['}']))

/-! ## Reading values -/

theorem skipBlanks_skipBlanks (cs : List Char) : skipBlanks (skipBlanks cs) = skipBlanks cs := by
  rw [skipBlanks, skipBlanks, List.dropWhile_idempotent]

/-- What is read depends only on what follows the blanks. -/
theorem read_congr (h : skipBlanks cs = skipBlanks more) : read fuel cs = read fuel more := by
  cases fuel with
  | zero => rw [read, read]
  | succ fuel => rw [read, read, h]

/-- The value is read wherever it can stand. -/
def Reads (j : Json) (cs : List Char) : Prop :=
  ∀ fuel rest, Ends rest → 3 * cs.length ≤ fuel →
    ∃ after, read fuel (cs ++ rest) = (j, some after) ∧ skipBlanks after = skipBlanks rest

/-- A value starts here, and no list ends. -/
def Opens (cs : List Char) : Prop :=
  ∀ rest, ∃ c more, skipBlanks (cs ++ rest) = c :: more ∧ c ≠ ']' ∧ c ≠ '}'

theorem Opens.length_pos (h : Opens cs) : 0 < cs.length := by
  refine List.length_pos_iff.mpr ?_
  rintro rfl
  obtain ⟨c, more, he, -⟩ := h []
  cases he

theorem Opens.append (h : Opens cs) (more : List Char) : Opens (cs ++ more) := fun rest => by
  rw [List.append_assoc]
  exact h (more ++ rest)

theorem Opens.joined {pieces : List (List Char)} (h : Opens cs) :
    Opens (Text.joined ',' (cs :: pieces)) := by
  cases pieces with
  | nil => exact h
  | cons piece pieces => exact h.append _

theorem opens_cons (hblank : isBlank c = false) (hc : c ≠ ']' ∧ c ≠ '}') : Opens (c :: cs) :=
  fun rest => ⟨c, cs ++ rest, skipBlanks_cons hblank _, hc⟩

theorem isBlank_of_isDigit (h : Decimal.isDigit c = true) : isBlank c = false := by
  by_contra hb
  simp only [Bool.not_eq_false, isBlank, Bool.or_eq_true, decide_eq_true_eq] at hb
  rcases hb with ((rfl | rfl) | rfl) | rfl <;> cases h

/-- The first character of a number. -/
theorem Figure.head_text {f : Figure} (hf : f.Sound) :
    ∃ c more, f.text = c :: more ∧ (c = '-' ∨ Decimal.isDigit c = true) := by
  obtain ⟨d, ds, hwhole⟩ := List.exists_cons_of_ne_nil hf.whole.1
  have hdigit : Decimal.isDigit d = true := hf.whole.2 d (hwhole ▸ List.mem_cons_self)
  unfold text sign
  rw [hwhole]
  cases f.negative with
  | true => exact ⟨'-', _, rfl, .inl rfl⟩
  | false => exact ⟨d, _, rfl, .inr hdigit⟩

theorem Spells.opens {j : Json} (h : Spells j cs) : Opens cs := by
  induction h with
  | pad hbefore h hafter ih =>
    intro rest
    obtain ⟨c, more, he, hc⟩ := ih (_ ++ rest)
    exact ⟨c, more, by rw [List.append_assoc, skipBlanks_append hbefore, List.append_assoc, he], hc⟩
  | number hf =>
    obtain ⟨c, more, he, hc⟩ := Figure.head_text hf
    rw [he]
    refine opens_cons ?_ ?_
    · rcases hc with rfl | hc
      · rfl
      · exact isBlank_of_isDigit hc
    · rcases hc with rfl | hc
      · decide
      · constructor <;> rintro rfl <;> cases hc
  | _ => exact opens_cons rfl (by decide)

theorem read_number {f : Figure} (hf : f.Sound) (hr : Ends rest) (fuel : Nat) :
    read (fuel + 1) (f.text ++ rest) = (.number f.numeral, some rest) := by
  have hscan := Figure.scanNumber_text hf hr
  obtain ⟨c, more, he, hc⟩ := Figure.head_text hf
  rw [he, List.cons_append] at hscan ⊢
  have hblank : isBlank c = false := by
    rcases hc with rfl | hc
    · rfl
    · exact isBlank_of_isDigit hc
  rw [read, skipBlanks_cons hblank]
  split
  case h_8 heq =>
    cases heq
    rw [if_pos (by simpa using hc), hscan]
  case h_1 heq => cases heq
  all_goals
    -- The value starts with none of the other letters and marks.
    rename_i heq
    cases heq
    rcases hc with hc | hc <;> cases hc

theorem joined_cons_cons (mark : Char) (piece next : List Char) (pieces : List (List Char)) :
    Text.joined mark (piece :: next :: pieces) =
      piece ++ mark :: Text.joined mark (next :: pieces) :=
  rfl

/-! ### Items -/

variable {j : Json} {first : Bool}

theorem itemThenMore_congr (h : skipBlanks cs = skipBlanks more) :
    itemThenMore fuel cs = itemThenMore fuel more := by
  cases fuel with
  | zero => rw [itemThenMore, itemThenMore]
  | succ fuel => rw [itemThenMore, itemThenMore, read_congr h]

theorem readItems_end (h : skipBlanks cs = ']' :: rest) :
    readItems (fuel + 1) first cs = ([], none, some rest) := by
  rw [readItems, h]
  rfl

theorem readItems_first (h : Opens cs) (rest : List Char) :
    readItems (fuel + 1) true (cs ++ rest) = itemThenMore fuel (cs ++ rest) := by
  obtain ⟨c, more, he, hc⟩ := h rest
  rw [itemThenMore_congr (skipBlanks_skipBlanks (cs ++ rest)).symm, readItems, he]
  split
  · rename_i heq
    cases heq
  · rename_i heq
    cases heq
    exact absurd rfl hc.1
  · rename_i heq
    cases heq
    rw [if_pos rfl]

theorem readItems_comma {after : List Char} (hcomma : skipBlanks after = ',' :: (cs ++ rest))
    (h : Opens cs) :
    readItems (fuel + 1) false after = itemThenMore fuel (cs ++ rest) := by
  obtain ⟨c, more, he, hc⟩ := h rest
  rw [itemThenMore_congr (skipBlanks_skipBlanks (cs ++ rest)).symm, readItems, hcomma]
  split
  · rename_i heq
    cases heq
  · rename_i heq
    cases heq
  · rename_i heq
    cases heq
    rw [if_neg Bool.false_ne_true, if_pos rfl, he]
    split
    · rename_i heq
      cases heq
      exact absurd rfl hc.1
    · rfl

/-- Items between commas are read up to the bracket. -/
theorem itemThenMore_joined (item : Json × List Char) (items : List (Json × List Char))
    (h : ∀ i ∈ item :: items, Reads i.1 i.2 ∧ Opens i.2) (rest : List Char)
    (hfuel : 3 * (Text.joined ',' ((item :: items).map Prod.snd)).length + 1 ≤ fuel) :
    itemThenMore fuel (Text.joined ',' ((item :: items).map Prod.snd) ++ ']' :: rest) =
      ((item :: items).map Prod.fst, none, some rest) := by
  induction items generalizing item fuel with
  | nil =>
    obtain ⟨hreads, hopens⟩ := h item List.mem_cons_self
    have hpos := hopens.length_pos
    simp only [List.map_cons, List.map_nil, Text.joined] at hfuel ⊢
    obtain ⟨fuel, rfl⟩ : ∃ n, fuel = n + 2 := ⟨fuel - 2, by omega⟩
    obtain ⟨after, hread, hafter⟩ := hreads (fuel + 1) (']' :: rest) (.inr (.inr (.inl rfl)))
      (by omega)
    rw [itemThenMore, hread]
    dsimp only
    rw [readItems_end (hafter.trans (skipBlanks_cons rfl rest))]
  | cons next items ih =>
    obtain ⟨hreads, hopens⟩ := h item List.mem_cons_self
    have hpos := hopens.length_pos
    have hnext : Opens (Text.joined ',' ((next :: items).map Prod.snd)) :=
      (h next (List.mem_cons_of_mem _ List.mem_cons_self)).2.joined
    simp only [List.map_cons, Text.joined, List.length_append, List.length_cons] at hfuel
    obtain ⟨fuel, rfl⟩ : ∃ n, fuel = n + 2 := ⟨fuel - 2, by omega⟩
    obtain ⟨after, hread, hafter⟩ := hreads (fuel + 1)
      (',' :: (Text.joined ',' ((next :: items).map Prod.snd) ++ ']' :: rest))
      (.inr (.inl rfl)) (by omega)
    rw [skipBlanks_cons rfl] at hafter
    have hshort : 3 * (Text.joined ',' ((next :: items).map Prod.snd)).length + 1 ≤ fuel := by
      simp only [List.map_cons]
      omega
    have hmore := ih next (fun i hi => h i (List.mem_cons_of_mem _ hi)) hshort
    rw [List.map_cons, List.map_cons, joined_cons_cons, List.append_assoc, List.cons_append,
      ← List.map_cons, itemThenMore, hread]
    dsimp only
    rw [readItems_comma hafter hnext, hmore]
    rfl

/-! ### Members -/

theorem readMembers_end (h : skipBlanks cs = '}' :: rest) :
    readMembers (fuel + 1) first cs = ([], none, some rest) := by
  rw [readMembers, h]
  rfl

theorem readMembers_first (h : Opens cs) (rest : List Char) :
    readMembers (fuel + 1) true (cs ++ rest) = memberThenMore fuel (skipBlanks (cs ++ rest)) := by
  obtain ⟨c, more, he, hc⟩ := h rest
  rw [readMembers, he]
  split
  · rename_i heq
    cases heq
  · rename_i heq
    cases heq
    exact absurd rfl hc.2
  · rename_i heq
    cases heq
    rw [if_pos rfl]

theorem readMembers_comma (h : skipBlanks cs = ',' :: more) :
    readMembers (fuel + 1) false cs = memberThenMore fuel (skipBlanks more) := by
  rw [readMembers, h]
  split
  · rename_i heq
    cases heq
  · rename_i heq
    cases heq
  · rename_i heq
    cases heq
    rw [if_neg Bool.false_ne_true, if_pos rfl]

theorem KeySpells.opens {key : Key} {name : List Char} (h : KeySpells key name) : Opens name := by
  cases h with
  | quoted hbefore h hafter =>
    intro rest
    exact ⟨'"', _, by rw [List.append_assoc, skipBlanks_append hbefore, List.cons_append,
      skipBlanks_cons rfl], by decide⟩

/-- A key and its colon are read, and then what follows. -/
theorem KeySpells.memberThenMore {key : Key} {name after : List Char}
    {members : List (Key × Json)} {stop : Option Stop} {last : Option (List Char)}
    (h : KeySpells key name) (hread : read fuel more = (j, some after))
    (hmembers : readMembers fuel false after = (members, stop, last)) :
    memberThenMore (fuel + 1) (skipBlanks (name ++ ':' :: more)) =
      ((key, j) :: members, stop, last) := by
  cases h with
  | @quoted before cs after s paired hbefore h hafter =>
    have hname : skipBlanks (before ++ '"' :: (cs ++ '"' :: after) ++ ':' :: more) =
        '"' :: (cs ++ '"' :: (after ++ ':' :: more)) := by
      rw [List.append_assoc, skipBlanks_append hbefore, List.cons_append, skipBlanks_cons rfl,
        List.append_assoc, List.cons_append]
    have hcolon : skipBlanks (after ++ ':' :: more) = ':' :: more := by
      rw [skipBlanks_append hafter, skipBlanks_cons rfl]
    rw [hname, Json.memberThenMore, h.scanString]
    simp only [hcolon, hread, hmembers, Bool.true_and, List.reverse_nil, List.nil_append]
    cases paired <;> rfl

/-- Members between commas are read up to the brace. -/
theorem memberThenMore_joined (m : Member) (members : List Member)
    (h : ∀ n ∈ m :: members, KeySpells n.key n.name ∧ Reads n.value n.body) (rest : List Char)
    (hfuel : 3 * (Text.joined ',' ((m :: members).map Member.text)).length + 1 ≤ fuel) :
    memberThenMore fuel
        (skipBlanks (Text.joined ',' ((m :: members).map Member.text) ++ '}' :: rest)) =
      ((m :: members).map Member.pair, none, some rest) := by
  induction members generalizing m fuel with
  | nil =>
    obtain ⟨hkey, hreads⟩ := h m List.mem_cons_self
    simp only [List.map_cons, List.map_nil, Text.joined, Member.text, List.length_append,
      List.length_cons] at hfuel ⊢
    obtain ⟨fuel, rfl⟩ : ∃ n, fuel = n + 2 := ⟨fuel - 2, by omega⟩
    obtain ⟨after, hread, hafter⟩ := hreads (fuel + 1) ('}' :: rest) (.inr (.inr (.inr rfl)))
      (by omega)
    rw [List.append_assoc, List.cons_append]
    exact hkey.memberThenMore hread (readMembers_end (hafter.trans (skipBlanks_cons rfl rest)))
  | cons next members ih =>
    obtain ⟨hkey, hreads⟩ := h m List.mem_cons_self
    simp only [List.map_cons, joined_cons_cons, Member.text, List.length_append,
      List.length_cons] at hfuel
    obtain ⟨fuel, rfl⟩ : ∃ n, fuel = n + 2 := ⟨fuel - 2, by omega⟩
    obtain ⟨after, hread, hafter⟩ := hreads (fuel + 1)
      (',' :: (Text.joined ',' ((next :: members).map Member.text) ++ '}' :: rest))
      (.inr (.inl rfl)) (by omega)
    rw [skipBlanks_cons rfl] at hafter
    have hshort : 3 * (Text.joined ',' ((next :: members).map Member.text)).length + 1 ≤ fuel := by
      simp only [List.map_cons, Member.text]
      omega
    have hmore := ih next (fun n hn => h n (List.mem_cons_of_mem _ hn)) hshort
    rw [List.map_cons, List.map_cons, joined_cons_cons, ← List.map_cons, Member.text,
      List.append_assoc, List.append_assoc, List.cons_append, List.cons_append]
    exact hkey.memberThenMore hread ((readMembers_comma hafter).trans hmore)

/-! ### Texts -/

theorem read_quoted {paired : Bool} {s : List Char} (h : Chars paired s cs) (fuel : Nat)
    (rest : List Char) :
    read (fuel + 1) ('"' :: (cs ++ '"' :: rest)) =
      (if paired then .text (String.ofList s) else .unpaired, some rest) := by
  have hscan := h.scanString [] true rest
  rw [read, skipBlanks_cons rfl]
  cases paired with
  | true => simp [hscan]
  | false => simp [hscan]

theorem read_array {items : List Json} (h : readItems fuel true cs = (items, none, some rest)) :
    read (fuel + 1) ('[' :: cs) = (.array items none, some rest) := by
  have hread : read (fuel + 1) ('[' :: cs) =
      (.array (readItems fuel true cs).1 (readItems fuel true cs).2.1,
        (readItems fuel true cs).2.2) := by
    rw [read]
    rfl
  rw [hread, h]

theorem read_object {members : List (Key × Json)}
    (h : readMembers fuel true cs = (members, none, some rest)) :
    read (fuel + 1) ('{' :: cs) = (.object members none, some rest) := by
  have hread : read (fuel + 1) ('{' :: cs) =
      (.object (readMembers fuel true cs).1 (readMembers fuel true cs).2.1,
        (readMembers fuel true cs).2.2) := by
    rw [read]
    rfl
  rw [hread, h]

theorem reads_cons (h : ∀ fuel rest, Ends rest → 3 * (cs.length + 1) ≤ fuel + 1 →
    read (fuel + 1) (c :: (cs ++ rest)) = (j, some rest)) : Reads j (c :: cs) := by
  intro fuel rest hr hfuel
  rw [List.length_cons] at hfuel
  obtain ⟨fuel, rfl⟩ : ∃ n, fuel = n + 1 := ⟨fuel - 1, by omega⟩
  exact ⟨rest, h fuel rest hr hfuel, rfl⟩

/-- **A value is read as it is spelled**, whatever it is and wherever it can stand. -/
theorem Spells.reads (h : Spells j cs) : Reads j cs := by
  induction h with
  | pad hbefore h hafter ih =>
    intro fuel rest hr hfuel
    simp only [List.length_append] at hfuel
    obtain ⟨after, hread, hskip⟩ := ih fuel _ (hr.append_blanks hafter) (by omega)
    refine ⟨after, ?_, hskip.trans (skipBlanks_append hafter rest)⟩
    rw [← hread, List.append_assoc, List.append_assoc]
    exact read_congr (skipBlanks_append hbefore _)
  | null => exact reads_cons fun fuel rest _ _ => by rw [read]; rfl
  | true => exact reads_cons fun fuel rest _ _ => by rw [read]; rfl
  | false => exact reads_cons fun fuel rest _ _ => by rw [read]; rfl
  | number hf =>
    intro fuel rest hr hfuel
    have hpos := (Spells.number hf).opens.length_pos
    obtain ⟨fuel, rfl⟩ : ∃ n, fuel = n + 1 := ⟨fuel - 1, by omega⟩
    exact ⟨rest, read_number hf hr fuel, rfl⟩
  | text h =>
    refine reads_cons fun fuel rest _ _ => ?_
    rw [List.append_assoc]
    exact read_quoted h fuel rest
  | unpaired h =>
    refine reads_cons fun fuel rest _ _ => ?_
    rw [List.append_assoc]
    exact read_quoted h fuel rest
  | noItems h =>
    refine reads_cons fun fuel rest _ hfuel => ?_
    obtain ⟨fuel, rfl⟩ : ∃ n, fuel = n + 1 := ⟨fuel - 1, by omega⟩
    rw [List.append_assoc]
    exact read_array (readItems_end (skipBlanks_append h (']' :: rest)))
  | noMembers h =>
    refine reads_cons fun fuel rest _ hfuel => ?_
    obtain ⟨fuel, rfl⟩ : ∃ n, fuel = n + 1 := ⟨fuel - 1, by omega⟩
    rw [List.append_assoc]
    exact read_object (readMembers_end (skipBlanks_append h ('}' :: rest)))
  | @items items hne h ih =>
    obtain ⟨item, items, rfl⟩ := List.exists_cons_of_ne_nil hne
    have hopens : Opens (Text.joined ',' ((item :: items).map Prod.snd)) :=
      (h item List.mem_cons_self).opens.joined
    refine reads_cons fun fuel rest _ hfuel => ?_
    rw [List.length_append, List.length_singleton] at hfuel
    obtain ⟨fuel, rfl⟩ : ∃ n, fuel = n + 1 := ⟨fuel - 1, by omega⟩
    rw [List.append_assoc]
    exact read_array ((readItems_first hopens _).trans
      (itemThenMore_joined item items (fun i hi => ⟨ih i hi, (h i hi).opens⟩) rest (by omega)))
  | @members members hne hkey h ih =>
    obtain ⟨m, members, rfl⟩ := List.exists_cons_of_ne_nil hne
    have hopens : Opens (Text.joined ',' ((m :: members).map Member.text)) :=
      ((hkey m List.mem_cons_self).opens.append _).joined
    refine reads_cons fun fuel rest _ hfuel => ?_
    rw [List.length_append, List.length_singleton] at hfuel
    obtain ⟨fuel, rfl⟩ : ∃ n, fuel = n + 1 := ⟨fuel - 1, by omega⟩
    rw [List.append_assoc]
    exact read_object ((readMembers_first hopens _).trans
      (memberThenMore_joined m members (fun n hn => ⟨hkey n hn, ih n hn⟩) rest (by omega)))

/-- **Reading undoes any spelling.** -/
theorem Spells.ofText (h : Spells j cs) : ofText (String.ofList cs) = (j, Bool.false) := by
  obtain ⟨after, hread, hafter⟩ := h.reads (3 * cs.length + 3) [] trivial (by omega)
  rw [List.append_nil] at hread
  have hblank : skipBlanks after = [] := hafter
  simp only [Json.ofText, String.toList_ofList, hread, hblank]
  rfl

end DealDesk.Json
