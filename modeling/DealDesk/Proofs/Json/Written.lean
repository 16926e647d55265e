import DealDesk.Json.Writer
import DealDesk.Proofs.Decimal.Digits
import DealDesk.Proofs.Json.Spelling

/-!
# What is written is a spelling

* `chars_escape` — an escaped text says the text, whatever its characters are.
* `spells_decimal`, `spells_whole` — the text of a number says the number.
* `spells_ofMembers` — an object is spelled when its members are.

`Spelled` is the notion they share: the text that `write` gives for a tree says that tree.
-/

namespace DealDesk.Json

open Decimal

/-- What is written for the tree says it. -/
def Spelled (j : Json) : Prop := Spells j (write j)

/-! ## Strings -/

/-- A control character is written by its number. -/
theorem hex4_digitChar {c : Char} (h : c < ' ') :
    hex4 '0' '0' (Nat.digitChar (c.toNat / 16)) (Nat.digitChar (c.toNat % 16)) = some c.toNat := by
  have hlow : c.toNat < 32 := h
  have hall : ∀ n < 32,
      hex4 '0' '0' (Nat.digitChar (n / 16)) (Nat.digitChar (n % 16)) = some n := by decide
  exact hall c.toNat hlow

theorem chars_escape_append {s cs : List Char} (c : Char) (h : Chars true s cs) :
    Chars true (c :: s) (escape c ++ cs) := by
  unfold escape
  split_ifs with hquote hslash hb hf hn hr ht hlow
  · subst hquote; exact .escape rfl h
  · subst hslash; exact .escape rfl h
  · subst hb; exact .escape rfl h
  · subst hf; exact .escape rfl h
  · subst hn; exact .escape rfl h
  · subst hr; exact .escape rfl h
  · subst ht; exact .escape rfl h
  · have hc : c.toNat < 32 := hlow
    have hnone : isLowSurrogate c.toNat = false ∧ isHighSurrogate c.toNat = false := by
      constructor <;> simp [isLowSurrogate, isHighSurrogate] <;> omega
    have hnumber := Chars.number (hex4_digitChar hlow) hnone.1 hnone.2 h
    rwa [Char.ofNat_toNat] at hnumber
  · exact .plain (Char.not_lt.mp hlow) hquote hslash h

/-- **What stands between the quotes says the text**, whatever its characters are. -/
theorem chars_escape (s : List Char) : Chars true s (s.flatMap escape) := by
  induction s with
  | nil => exact .nil
  | cons c s ih => exact chars_escape_append c ih

theorem spelled_text (s : String) : Spelled (.text s) := by
  have h := Spells.text (chars_escape s.toList)
  rwa [String.ofList_toList] at h

/-! ## Numbers -/

theorem digits_toDigits (n : Nat) : Figure.Digits (Nat.toDigits 10 n) :=
  ⟨Nat.toDigits_ne_nil, fun _ => isDigit_of_mem_toDigits⟩

theorem digits_zero : Figure.Digits ['0'] :=
  ⟨List.cons_ne_nil _ _, List.forall_mem_singleton.mpr rfl⟩

theorem isDigit_of_mem_zeros {k : Nat} {c : Char} (h : c ∈ zeros k) : isDigit c = true := by
  rw [List.eq_of_mem_replicate h]
  rfl

theorem toDigits_zero_alone {n : Nat} {more : List Char} (h : Nat.toDigits 10 n = '0' :: more) :
    more = [] := by
  rcases Nat.eq_zero_or_pos n with rfl | hpos
  · cases h
    rfl
  · obtain ⟨c, rest, he, hc⟩ := head_toDigits hpos
    rw [he] at h
    cases h
    exact absurd rfl hc

theorem toList_signed (negative : Bool) (body : List Char) :
    (signed negative body).toList = (if negative then ['-'] else []) ++ body := by
  rw [signed, String.toList_ofList]
  cases negative <;> rfl

theorem spelled_whole (negative : Bool) (n : Nat) : Spelled (.number (.whole negative n)) := by
  have h := @Spells.number ⟨negative, Nat.toDigits 10 n, none, none⟩
    ⟨digits_toDigits n, fun _ => toDigits_zero_alone, nofun, nofun⟩
  have hnumeral : Figure.numeral ⟨negative, Nat.toDigits 10 n, none, none⟩ = .whole negative n :=
    congrArg (Numeral.whole negative) (ofDigits_toDigits n)
  have htext : Figure.text ⟨negative, Nat.toDigits 10 n, none, none⟩ =
      (Numeral.whole negative n).text.toList := by
    rw [Numeral.text, toList_signed]
    simp [Figure.text, Figure.sign, Figure.fractionText, Figure.powerText]
  rwa [hnumeral, htext] at h

/-- The text says the decimal, with a sign before it or without. -/
def Says (body : List Char) (d : Scientific) : Prop :=
  ∀ negative : Bool, ∃ f : Figure, f.Sound ∧ f.text = (signed negative body).toList ∧
    f.numeral = .decimal negative d

/-- Digits with a point or an exponent, whose value is right. -/
theorem says_of (whole : List Char) (fraction : Option (List Char))
    (power : Option (Char × List Char × List Char)) {body : List Char} {d : Scientific}
    (hsound : ∀ negative, Figure.Sound ⟨negative, whole, fraction, power⟩)
    (hpoint : fraction.isSome = true ∨ power.isSome = true)
    (hvalue : Numeral.normal ⟨ofDigits (whole ++ fraction.getD []),
      (power.map fun p => Figure.powerOf p.2.1 p.2.2).getD 0 - (fraction.getD []).length⟩ = d)
    (hbody : body = whole ++ Figure.fractionText ⟨false, whole, fraction, power⟩ ++
      Figure.powerText ⟨false, whole, fraction, power⟩) : Says body d := by
  refine fun negative => ⟨⟨negative, whole, fraction, power⟩, hsound negative, ?_, ?_⟩
  · rw [toList_signed, hbody]
    simp only [Figure.text, Figure.sign, Figure.fractionText, Figure.powerText, List.append_assoc]
  · rw [← hvalue]
    cases fraction <;> cases power <;> first | rfl | simp at hpoint

theorem says_zero : Says ['0', '.', '0'] ⟨0, 0⟩ := by
  refine says_of ['0'] (some ['0']) none (fun negative => ?_) (.inl rfl) rfl rfl
  exact ⟨digits_zero, by rintro more ⟨⟩; rfl, by rintro digits ⟨⟩; exact digits_zero, nofun⟩

section Decimals

variable {n : Nat} (hn : n % 10 ≠ 0)
include hn

theorem normal_eq {cs : List Char} {k : Nat} {e e' : Int} (hcs : ofDigits cs = n * 10 ^ k)
    (he : e' + k = e) : Numeral.normal ⟨ofDigits cs, e'⟩ = ⟨n, e⟩ := by
  rw [hcs, normal_mul_pow hn, he]

/-- The first digit is not a zero. -/
theorem zero_alone {whole more tail : List Char} (hsplit : Nat.toDigits 10 n = whole ++ more)
    (h : whole = '0' :: tail) : tail = [] := by
  obtain ⟨c, rest, he, hc⟩ := head_toDigits (n := n) (by omega)
  rw [hsplit, h] at he
  cases he
  exact absurd rfl hc

/-- The point stands before the digits. -/
theorem says_spread (k : Nat) :
    Says ('0' :: '.' :: zeros k ++ Nat.toDigits 10 n)
      ⟨n, -(k + (Nat.toDigits 10 n).length : Nat)⟩ := by
  refine says_of ['0'] (some (zeros k ++ Nat.toDigits 10 n)) none (fun negative => ?_) (.inl rfl)
    (normal_eq hn (k := 0) ?_ ?_) ?_
  · refine ⟨digits_zero, by rintro more ⟨⟩; rfl, ?_, nofun⟩
    rintro digits ⟨⟩
    refine ⟨by simp [Nat.toDigits_ne_nil], fun c hc => ?_⟩
    exact (List.mem_append.mp hc).elim isDigit_of_mem_zeros isDigit_of_mem_toDigits
  · rw [Option.getD_some, ofDigits_append, ofDigits_append, ofDigits_zeros, ofDigits_toDigits]
    simp [ofDigits]
  · simp [zeros]
  · simp [Figure.fractionText, Figure.powerText]

/-- The point stands among the digits. -/
theorem says_split {whole places : List Char} (hsplit : Nat.toDigits 10 n = whole ++ places)
    (hwhole : whole ≠ []) (hplaces : places ≠ []) :
    Says (whole ++ '.' :: places) ⟨n, -places.length⟩ := by
  have hdigits : ∀ c ∈ whole ++ places, isDigit c = true := fun c hc =>
    isDigit_of_mem_toDigits (hsplit ▸ hc)
  refine says_of whole (some places) none (fun negative => ?_) (.inl rfl)
    (normal_eq hn (k := 0) ?_ ?_) ?_
  · refine ⟨⟨hwhole, fun c hc => hdigits c (List.mem_append_left _ hc)⟩,
      fun more => zero_alone hn hsplit, ?_, nofun⟩
    rintro digits ⟨⟩
    exact ⟨hplaces, fun c hc => hdigits c (List.mem_append_right _ hc)⟩
  · rw [Option.getD_some, ← hsplit, ofDigits_toDigits, Nat.pow_zero, Nat.mul_one]
  · simp
  · simp [Figure.fractionText, Figure.powerText]

/-- The point stands after the digits and some zeros. -/
theorem says_padded (k : Nat) :
    Says (Nat.toDigits 10 n ++ zeros k ++ ['.', '0']) ⟨n, k⟩ := by
  obtain ⟨d, rest, hd, hfirst⟩ := head_toDigits (n := n) (by omega)
  refine says_of (Nat.toDigits 10 n ++ zeros k) (some ['0']) none (fun negative => ?_) (.inl rfl)
    (normal_eq hn (k := k + 1) ?_ ?_) ?_
  · refine ⟨⟨by simp [Nat.toDigits_ne_nil], fun c hc => ?_⟩, ?_, ?_, nofun⟩
    · exact (List.mem_append.mp hc).elim isDigit_of_mem_toDigits isDigit_of_mem_zeros
    · intro more he
      rw [hd] at he
      cases he
      exact absurd rfl hfirst
    · rintro digits ⟨⟩
      exact digits_zero
  · rw [Option.getD_some, ofDigits_append, ofDigits_append, ofDigits_toDigits, ofDigits_zeros]
    simp [ofDigits, zeros, Nat.pow_succ]
    ring
  · simp
  · simp [Figure.fractionText, Figure.powerText]

omit hn in
theorem signedPower_eq (p : Int) : ∃ sign, (sign = ['+'] ∨ sign = ['-']) ∧
    signedPower p = sign ++ Nat.toDigits 10 p.natAbs ∧
    Figure.powerOf sign (Nat.toDigits 10 p.natAbs) = p := by
  unfold signedPower Figure.powerOf
  rw [ofDigits_toDigits]
  by_cases hp : p < 0
  · refine ⟨['-'], .inr rfl, by rw [if_pos hp]; rfl, ?_⟩
    rw [if_pos rfl]
    omega
  · refine ⟨['+'], .inl rfl, by rw [if_neg hp]; rfl, ?_⟩
    rw [if_neg (by decide)]
    omega

/-- An exponent follows the digits. -/
theorem says_powered (p : Int) {d : Char} {rest : List Char}
    (h : Nat.toDigits 10 n = d :: rest) :
    Says (match d :: rest with
      | [d] => d :: 'e' :: signedPower p
      | d :: rest => d :: '.' :: rest ++ 'e' :: signedPower p
      | [] => []) ⟨n, p - rest.length⟩ := by
  obtain ⟨sign, hsign, htext, hpower⟩ := signedPower_eq p
  have hdigit : ∀ c ∈ d :: rest, isDigit c = true := fun c hc => isDigit_of_mem_toDigits (h ▸ hc)
  have hfirst : Figure.Digits [d] :=
    ⟨by simp, fun c hc => hdigit c (List.mem_singleton.mp hc ▸ List.mem_cons_self)⟩
  have hexponent : ∀ letter sign' digits,
      some ('e', sign, Nat.toDigits 10 p.natAbs) = some (letter, sign', digits) →
        (letter = 'e' ∨ letter = 'E') ∧ (sign' = [] ∨ sign' = ['+'] ∨ sign' = ['-']) ∧
          Figure.Digits digits := by
    rintro letter sign' digits ⟨⟩
    exact ⟨.inl rfl, .inr hsign, digits_toDigits _⟩
  cases rest with
  | nil =>
    refine says_of [d] none (some ('e', sign, Nat.toDigits 10 p.natAbs)) (fun negative => ?_)
      (.inr rfl) (normal_eq hn (k := 0) ?_ ?_) ?_
    · exact ⟨hfirst, by rintro more ⟨⟩; rfl, nofun, hexponent⟩
    · rw [Option.getD_none, List.append_nil, ← h, ofDigits_toDigits, Nat.pow_zero, Nat.mul_one]
    · simp [hpower]
    · simp [Figure.fractionText, Figure.powerText, htext]
  | cons c rest =>
    refine says_of [d] (some (c :: rest)) (some ('e', sign, Nat.toDigits 10 p.natAbs))
      (fun negative => ?_) (.inl rfl) (normal_eq hn (k := 0) ?_ ?_) ?_
    · refine ⟨hfirst, by rintro more ⟨⟩; rfl, ?_, hexponent⟩
      rintro digits ⟨⟩
      exact ⟨by simp, fun c hc => hdigit c (List.mem_cons_of_mem _ hc)⟩
    · rw [Option.getD_some, List.singleton_append, ← h, ofDigits_toDigits, Nat.pow_zero,
        Nat.mul_one]
    · simp [hpower]
    · simp [Figure.fractionText, Figure.powerText, htext]

/-- **The digits of a decimal are written so that they say it**, wherever its point is. -/
theorem says_recordDigits (e : Int) :
    Says (recordDigits (Nat.toDigits 10 n) ((Nat.toDigits 10 n).length + e)) ⟨n, e⟩ := by
  obtain ⟨d, rest, hd, -⟩ := head_toDigits (n := n) (by omega)
  have hlength : (Nat.toDigits 10 n).length = rest.length + 1 := by rw [hd, List.length_cons]
  unfold recordDigits positional
  generalize hpoint : ((Nat.toDigits 10 n).length : Int) + e = point
  split_ifs with hfar hwhole hbefore hbefore
  · have h := says_powered hn (point - 1) hd
    have he : point - 1 - rest.length = e := by omega
    rw [he] at h
    rw [hd]
    exact h
  · omega
  · have h := says_padded hn (point.toNat - (Nat.toDigits 10 n).length)
    have he : ((point.toNat - (Nat.toDigits 10 n).length : Nat) : Int) = e := by omega
    rwa [he] at h
  · have h := says_spread hn (-point).toNat
    have he : -(((-point).toNat + (Nat.toDigits 10 n).length : Nat) : Int) = e := by omega
    rwa [he] at h
  · have h := says_split hn (List.take_append_drop point.toNat (Nat.toDigits 10 n)).symm
      (by simp [Nat.toDigits_ne_nil]; omega) (by simp; omega)
    have he : -((Nat.toDigits 10 n).drop point.toNat).length = e := by
      rw [List.length_drop]
      omega
    rwa [he] at h

end Decimals

/-- **The text of a decimal says it**, if it is normal. -/
theorem spelled_decimal (negative : Bool) {d : Scientific} (h : d.Normal) :
    Spelled (.number (.decimal negative d)) := by
  have hsays : ∃ f : Figure, f.Sound ∧ f.text = (recordText negative d).toList ∧
      f.numeral = .decimal negative d := by
    rcases h with rfl | hn
    · exact says_zero negative
    · have hd := significant_mul_pow hn 0 d.exponent
      rw [Nat.pow_zero, Nat.mul_one, Nat.cast_zero, add_zero] at hd
      rw [recordText, if_neg (by omega), hd]
      exact says_recordDigits hn d.exponent negative
  obtain ⟨f, hf, htext, hnumeral⟩ := hsays
  have hspells := Spells.number hf
  rwa [htext, hnumeral] at hspells

/-! ## Objects -/

theorem keySpells_writeString (s : String) : KeySpells (.text s) (writeString s) := by
  have hblank : Blanks [] := by simp [Blanks]
  have h := KeySpells.quoted hblank (chars_escape s.toList) hblank
  rwa [keyOf, if_pos rfl, String.ofList_toList] at h

/-- A member with the text that is written for it. -/
def Member.written (m : String × Json) : Member :=
  ⟨.text m.1, m.2, writeString m.1, write m.2⟩

theorem ofMembers_eq (members : List (String × Json)) :
    ofMembers members = .object (members.map fun m => (Key.text m.1, m.2)) none :=
  rfl

theorem writeMembers_eq (m : String × Json) (members : List (String × Json)) :
    writeMembers ((m :: members).map fun m => (Key.text m.1, m.2)) =
      Text.joined ',' ((m :: members).map fun m => (Member.written m).text) ++ ['}'] := by
  induction members generalizing m with
  | nil => simp [writeMembers, writeKey, Text.joined, Member.written, Member.text]
  | cons next members ih =>
    have htail := ih next
    simp only [List.map_cons] at htail ⊢
    rw [joined_cons_cons, List.append_assoc, List.cons_append, ← htail]
    simp [writeMembers, writeKey, Member.written, Member.text]

/-- **An object is spelled when its members are.** -/
theorem spelled_ofMembers {members : List (String × Json)}
    (h : ∀ m ∈ members, Spelled m.2) : Spelled (ofMembers members) := by
  cases members with
  | nil => exact @Spells.noMembers [] (by simp [Blanks])
  | cons m members =>
    have hspells := @Spells.members ((m :: members).map Member.written) (by simp)
      (List.forall_mem_map.mpr fun n _ => keySpells_writeString n.1)
      (List.forall_mem_map.mpr fun n hn => h n hn)
    rw [List.map_map, List.map_map] at hspells
    rw [Spelled, ofMembers_eq, write, writeMembers_eq]
    exact hspells

end DealDesk.Json
