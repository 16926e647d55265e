import DealDesk.Json.Reader

/-!
# Numbers and strings as they may be written

* `Blanks`, `Ends` — what may stand around a value, and what may follow it.
* `Figure` — a number: digits, a point with digits, an exponent. `Figure.scanNumber_text` reads it.
* `Chars` — what may stand between quotes, and the characters it stands for. A surrogate that is
  half of no pair stands for none. `Chars.scanString` reads it.
-/

namespace DealDesk.Json

variable {cs more rest : List Char} {c : Char}

/-! ## Blanks -/

def Blanks (cs : List Char) : Prop := ∀ c ∈ cs, isBlank c = true

theorem skipBlanks_append (h : Blanks cs) (more : List Char) :
    skipBlanks (cs ++ more) = skipBlanks more := by
  rw [skipBlanks, List.dropWhile_append_of_pos h, ← skipBlanks]

theorem skipBlanks_cons (h : isBlank c = false) (cs : List Char) :
    skipBlanks (c :: cs) = c :: cs :=
  List.dropWhile_cons_of_neg (by simp [h])

/-- A value can only be followed by the end, by a blank, or by a mark that closes or separates. -/
def Ends : List Char → Prop
  | [] => True
  | c :: _ => isBlank c = true ∨ c = ',' ∨ c = ']' ∨ c = '}'

theorem Ends.append_blanks (h : Ends rest) (hw : Blanks cs) : Ends (cs ++ rest) := by
  cases cs with
  | nil => exact h
  | cons c cs => exact .inl (hw c List.mem_cons_self)

/-! ## Numbers -/

/-- A number as it may be written. -/
structure Figure where
  negative : Bool
  whole : List Char
  /-- The digits after the point. -/
  fraction : Option (List Char)
  /-- The letter, the sign and the digits of the exponent. -/
  power : Option (Char × List Char × List Char)

namespace Figure

def sign (f : Figure) : List Char := if f.negative then ['-'] else []

def fractionText (f : Figure) : List Char :=
  match f.fraction with
  | none => []
  | some digits => '.' :: digits

def powerText (f : Figure) : List Char :=
  match f.power with
  | none => []
  | some (letter, sign, digits) => letter :: (sign ++ digits)

def text (f : Figure) : List Char := f.sign ++ f.whole ++ f.fractionText ++ f.powerText

/-- The exponent that a sign and digits stand for. -/
def powerOf (sign digits : List Char) : Int :=
  if sign = ['-'] then -(Decimal.ofDigits digits : Int) else Decimal.ofDigits digits

def numeral (f : Figure) : Numeral :=
  numeralOf f.negative f.whole f.fraction (f.power.map fun p => powerOf p.2.1 p.2.2)

/-- One digit at least. -/
def Digits (cs : List Char) : Prop := cs ≠ [] ∧ ∀ c ∈ cs, Decimal.isDigit c = true

/-- No zero stands before other digits. -/
structure Sound (f : Figure) : Prop where
  whole : Digits f.whole
  zero : ∀ more, f.whole = '0' :: more → more = []
  fraction : ∀ digits, f.fraction = some digits → Digits digits
  power : ∀ letter sign digits, f.power = some (letter, sign, digits) →
    (letter = 'e' ∨ letter = 'E') ∧ (sign = [] ∨ sign = ['+'] ∨ sign = ['-']) ∧ Digits digits

end Figure

/-- No digit comes next. -/
def NoDigit (cs : List Char) : Prop := ∀ c ∈ cs.head?, Decimal.isDigit c = false

theorem spanDigits_append (hd : ∀ c ∈ cs, Decimal.isDigit c = true) (hn : NoDigit more) :
    Decimal.spanDigits (cs ++ more) = (cs, more) := by
  have hnone : more.takeWhile Decimal.isDigit = [] ∧ more.dropWhile Decimal.isDigit = more := by
    cases more with
    | nil => exact ⟨rfl, rfl⟩
    | cons c more =>
      have hc : Decimal.isDigit c = false := hn c rfl
      exact ⟨List.takeWhile_cons_of_neg (by simp [hc]), List.dropWhile_cons_of_neg (by simp [hc])⟩
  rw [Decimal.spanDigits, List.takeWhile_append_of_pos hd, List.dropWhile_append_of_pos hd,
    hnone.1, hnone.2, List.append_nil]

/-- What may follow a value goes on with no number. -/
theorem Ends.noDigit (h : Ends rest) : NoDigit rest := by
  cases rest with
  | nil => exact nofun
  | cons c rest =>
    rintro _ ⟨⟩
    rcases h with h | rfl | rfl | rfl
    · simp only [isBlank, Bool.or_eq_true, decide_eq_true_eq] at h
      rcases h with ((rfl | rfl) | rfl) | rfl <;> decide
    all_goals decide

theorem Ends.scanPower (h : Ends rest) : scanPower rest = .ok (none, rest) := by
  cases rest with
  | nil => rfl
  | cons c rest =>
    have hc : ¬(c = 'e' ∨ c = 'E') := by
      rintro (rfl | rfl) <;> rcases h with h | h | h | h <;> cases h
    rw [Json.scanPower, if_neg hc]

theorem Ends.ne_point (h : Ends rest) : ∀ more, rest ≠ '.' :: more := by
  rintro more rfl
  rcases h with h | h | h | h <;> cases h

theorem scanFraction_of_ne (h : ∀ more, cs ≠ '.' :: more) : scanFraction cs = .ok (none, cs) := by
  unfold scanFraction
  split
  · exact absurd rfl (h _)
  · rfl

/-- An exponent is read. -/
theorem scanPower_append {letter : Char} {sign digits : List Char}
    (hl : letter = 'e' ∨ letter = 'E') (hs : sign = [] ∨ sign = ['+'] ∨ sign = ['-'])
    (hd : Figure.Digits digits) (hn : NoDigit rest) :
    scanPower (letter :: (sign ++ digits) ++ rest) =
      .ok (some (Figure.powerOf sign digits), rest) := by
  obtain ⟨d, ds, rfl⟩ := List.exists_cons_of_ne_nil hd.1
  have hspan := spanDigits_append hd.2 hn
  have hdigit := hd.2 d List.mem_cons_self
  have hsign : Decimal.spanSign (sign ++ (d :: ds) ++ rest) =
      (decide (sign = ['-']), (d :: ds) ++ rest) := by
    rcases hs with rfl | rfl | rfl
    · show Decimal.spanSign (d :: (ds ++ rest)) = (false, _)
      unfold Decimal.spanSign
      split
      · rename_i he; cases he; cases hdigit
      · rename_i he; cases he; cases hdigit
      · rfl
    · rfl
    · rfl
  rw [List.cons_append, scanPower, if_pos hl, hsign]
  dsimp only
  rw [hspan]
  rcases hs with rfl | rfl | rfl <;> rfl

namespace Figure

variable {f : Figure}

theorem powerText_noDigit (hf : f.Sound) (hr : Ends rest) : NoDigit (f.powerText ++ rest) := by
  unfold powerText
  cases hp : f.power with
  | none => exact hr.noDigit
  | some p =>
    obtain ⟨letter, sign, digits⟩ := p
    rintro _ ⟨⟩
    rcases (hf.power _ _ _ hp).1 with rfl | rfl <;> decide

theorem scanPower_powerText (hf : f.Sound) (hr : Ends rest) : scanPower (f.powerText ++ rest) =
    .ok (f.power.map fun p => powerOf p.2.1 p.2.2, rest) := by
  unfold powerText
  cases hp : f.power with
  | none => exact hr.scanPower
  | some p =>
    obtain ⟨letter, sign, digits⟩ := p
    obtain ⟨hl, hs, hd⟩ := hf.power _ _ _ hp
    exact scanPower_append hl hs hd hr.noDigit

theorem scanFraction_fractionText (hf : f.Sound) (hr : Ends rest) :
    scanFraction (f.fractionText ++ (f.powerText ++ rest)) =
      .ok (f.fraction, f.powerText ++ rest) := by
  unfold fractionText
  cases hfraction : f.fraction with
  | none =>
    refine scanFraction_of_ne fun more he => ?_
    unfold powerText at he
    cases hp : f.power with
    | none =>
      rw [hp] at he
      exact hr.ne_point more he
    | some p =>
      obtain ⟨letter, sign, digits⟩ := p
      rw [hp] at he
      cases he
      rcases (hf.power _ _ _ hp).1 with h | h <;> cases h
  | some digits =>
    obtain ⟨d, ds, rfl⟩ := List.exists_cons_of_ne_nil (hf.fraction _ hfraction).1
    have hspan := spanDigits_append (hf.fraction _ hfraction).2 (powerText_noDigit hf hr)
    rw [List.cons_append, scanFraction, hspan]

/-- A digit, a point or a letter follows no digits. -/
theorem fractionText_noDigit (hf : f.Sound) (hr : Ends rest) :
    NoDigit (f.fractionText ++ (f.powerText ++ rest)) := by
  unfold fractionText
  cases f.fraction with
  | none => exact powerText_noDigit hf hr
  | some digits =>
    rintro _ ⟨⟩
    decide

/-- **A number that is written soundly is read.** -/
theorem scanNumber_text (hf : f.Sound) (hr : Ends rest) :
    scanNumber (f.text ++ rest) = .ok (f.numeral, rest) := by
  obtain ⟨d, ds, hwhole⟩ := List.exists_cons_of_ne_nil hf.whole.1
  have hdigit : Decimal.isDigit d = true := hf.whole.2 d (hwhole ▸ List.mem_cons_self)
  have hspan := spanDigits_append hf.whole.2 (fractionText_noDigit hf hr)
  have htext : f.text ++ rest =
      f.sign ++ (f.whole ++ (f.fractionText ++ (f.powerText ++ rest))) := by
    simp only [text, List.append_assoc]
  -- The two that follow rule out the other cases of the matches in `scanNumber`.
  have hunsigned : ∀ more, f.whole ++ (f.fractionText ++ (f.powerText ++ rest)) = '-' :: more →
      False := by
    rw [hwhole]
    rintro more ⟨⟩
    cases hdigit
  have hzero : ∀ c more, f.whole = '0' :: c :: more → False := fun c more he => by
    cases hf.zero _ he
  rw [htext, sign, numeral]
  cases f.negative <;>
    simp [scanNumber, hspan, scanFraction_fractionText hf hr, scanPower_powerText hf hr,
      hf.whole.1]

end Figure

/-! ## Strings -/

/-- `Chars paired s cs`: between quotes, `cs` stands for the text `s`, if every surrogate is
paired. -/
inductive Chars : Bool → List Char → List Char → Prop
  | nil : Chars true [] []
  | plain {c : Char} {paired : Bool} {s cs : List Char} (hlow : ' ' ≤ c) (hquote : c ≠ '"')
      (hslash : c ≠ '\\') (h : Chars paired s cs) : Chars paired (c :: s) (c :: cs)
  | escape {e c : Char} {paired : Bool} {s cs : List Char} (he : escaped e = some c)
      (h : Chars paired s cs) : Chars paired (c :: s) ('\\' :: e :: cs)
  | number {a b c d : Char} {n : Nat} {paired : Bool} {s cs : List Char}
      (hn : hex4 a b c d = some n) (hlow : isLowSurrogate n = false)
      (hhigh : isHighSurrogate n = false) (h : Chars paired s cs) :
      Chars paired (Char.ofNat n :: s) ('\\' :: 'u' :: a :: b :: c :: d :: cs)
  | pair {a b c d a' b' c' d' : Char} {high low : Nat} {paired : Bool} {s cs : List Char}
      (hn : hex4 a b c d = some high) (hhigh : isHighSurrogate high = true)
      (hn' : hex4 a' b' c' d' = some low) (hlow : isLowSurrogate low = true)
      (h : Chars paired s cs) :
      Chars paired (pairedSurrogates high low :: s)
        ('\\' :: 'u' :: a :: b :: c :: d :: '\\' :: 'u' :: a' :: b' :: c' :: d' :: cs)
  | low {a b c d : Char} {n : Nat} {paired : Bool} {s cs : List Char}
      (hn : hex4 a b c d = some n) (hlow : isLowSurrogate n = true) (h : Chars paired s cs) :
      Chars false s ('\\' :: 'u' :: a :: b :: c :: d :: cs)
  | high {a b c d : Char} {n : Nat} {paired : Bool} {s cs : List Char}
      (hn : hex4 a b c d = some n) (hhigh : isHighSurrogate n = true)
      (halone : ∀ a b c d more m, cs = '\\' :: 'u' :: a :: b :: c :: d :: more →
        hex4 a b c d = some m → isLowSurrogate m = false)
      (h : Chars paired s cs) : Chars false s ('\\' :: 'u' :: a :: b :: c :: d :: cs)

theorem isLowSurrogate_of_high {n : Nat} (h : isHighSurrogate n = true) :
    isLowSurrogate n = false := by
  simp only [isHighSurrogate, isLowSurrogate, Bool.and_eq_true, Bool.and_eq_false_iff,
    decide_eq_true_eq, decide_eq_false_iff_not] at h ⊢
  omega

theorem ne_u_of_escaped {e c : Char} (h : escaped e = some c) : e ≠ 'u' := by
  rintro rfl
  cases h

/-- A second half does not stand where none is written. -/
theorem Chars.secondHalf {paired : Bool} {s : List Char} (h : Chars paired s cs)
    (halone : ∀ a b c d more m, cs = '\\' :: 'u' :: a :: b :: c :: d :: more →
      hex4 a b c d = some m → isLowSurrogate m = false) (rest : List Char) :
    secondHalf (cs ++ '"' :: rest) = .absent := by
  have numbered : ∀ {a b c d : Char} {n : Nat} {more : List Char},
      cs = '\\' :: 'u' :: a :: b :: c :: d :: more → hex4 a b c d = some n →
        Json.secondHalf (cs ++ '"' :: rest) = .absent := by
    intro a b c d n more he hn
    have hlow := halone _ _ _ _ _ _ he hn
    subst he
    simp only [List.cons_append, Json.secondHalf, hn, hlow, Bool.false_eq_true, if_false]
  cases h with
  | nil => rfl
  | plain hlow hquote hslash h =>
    unfold Json.secondHalf
    split <;> simp_all
  | escape he h =>
    have hu := ne_u_of_escaped he
    unfold Json.secondHalf
    split <;> simp_all
  | number hn => exact numbered rfl hn
  | pair hn => exact numbered rfl hn
  | low hn => exact numbered rfl hn
  | high hn => exact numbered rfl hn

/-- **What stands between quotes is read**, up to the quote that closes it. -/
theorem Chars.scanString {p : Bool} {s : List Char} (h : Chars p s cs) (done : List Char)
    (paired : Bool) (rest : List Char) :
    scanString done paired (cs ++ '"' :: rest) =
      .closed (if paired && p then some (String.ofList (done.reverse ++ s)) else none) rest := by
  induction h generalizing done paired with
  | nil => 
    rw [List.nil_append, Json.scanString]
    simp
  | plain hlow hquote hslash h ih =>
    rw [List.cons_append, Json.scanString]
    · rw [if_neg (Char.not_lt.mpr hlow), ih]
      simp
    all_goals simp_all
  | escape he h ih =>
    have hu := ne_u_of_escaped he
    rw [List.cons_append, List.cons_append, Json.scanString]
    · simp only [he]
      rw [ih]
      simp
    all_goals simp_all
  | number hn hlow hhigh h ih =>
    simp only [List.cons_append]
    rw [Json.scanString]
    simp only [hn, hlow, hhigh, Bool.false_eq_true, if_false]
    rw [ih]
    simp
  | pair hn hhigh hn' hlow h ih =>
    simp only [List.cons_append]
    rw [Json.scanString]
    simp only [hn, isLowSurrogate_of_high hhigh, hhigh, Json.secondHalf, hn', hlow,
      Bool.false_eq_true, if_false, if_true, List.drop_succ_cons, List.drop_zero]
    rw [ih]
    simp
  | low hn hlow h ih =>
    simp only [List.cons_append]
    rw [Json.scanString]
    simp only [hn, hlow, if_true]
    rw [ih]
    simp
  | high hn hhigh halone h ih =>
    simp only [List.cons_append]
    rw [Json.scanString]
    simp only [hn, isLowSurrogate_of_high hhigh, hhigh, h.secondHalf halone,
      Bool.false_eq_true, if_false, if_true]
    rw [ih]
    simp

end DealDesk.Json
