import DealDesk.Toml.Value

/-!
# Unquoted TOML values

* `isBare` — the characters of a word that needs no quotes.
* `readNumber` — whole numbers in four bases and numbers with a point or an exponent; single
  underscores may stand between digits.
* `spanMoment` — the text of a date or a time of day, which may still turn out to be none.
* `readScalar` — the unquoted value at the front of a text, and what follows it.
-/

namespace DealDesk.Toml

def isLatin (c : Char) : Bool := ('a' ≤ c && c ≤ 'z') || ('A' ≤ c && c ≤ 'Z')

def isBare (c : Char) : Bool := isLatin c || Decimal.isDigit c || c = '-' || c = '_'

def spanBare (cs : List Char) : List Char × List Char := (cs.takeWhile isBare, cs.dropWhile isBare)

/-! ## Digits -/

/-- The value of a digit in a base. -/
def digitValue (base : Nat) (c : Char) : Option Nat :=
  let n :=
    if '0' ≤ c ∧ c ≤ '9' then c.toNat - '0'.toNat
    else if 'a' ≤ c ∧ c ≤ 'f' then c.toNat - 'a'.toNat + 10
    else if 'A' ≤ c ∧ c ≤ 'F' then c.toNat - 'A'.toNat + 10
    else base
  if n < base then some n else none

/-- Are the underscores single, and only between digits? The flag says that a digit comes next. -/
def wellGrouped : Bool → List Char → Bool
  | due, [] => !due
  | due, c :: cs => if c = '_' then !due && wellGrouped true cs else wellGrouped false cs

/-- The digits at the front, one at least, without their underscores, and what follows. -/
def spanGrouped (base : Nat) (cs : List Char) : Option (List Char × List Char) :=
  let inside c := c = '_' || (digitValue base c).isSome
  let run := cs.takeWhile inside
  if wellGrouped true run then some (run.filter (· ≠ '_'), cs.dropWhile inside) else none

/-- Decimal digits without zeros before other digits. -/
def spanDecimal (cs : List Char) : Option (List Char × List Char) :=
  match spanGrouped 10 cs with
  | some ('0' :: _ :: _, _) => none
  | r => r

def spanMinus : List Char → Bool × List Char
  | '-' :: cs => (true, cs)
  | cs => (false, cs)

/-! ## Numbers -/

/-- A whole number has to fit into 64 bits with a sign. -/
def wholeOf (negative : Bool) (n : Nat) : Option Toml :=
  let i : Int := if negative then -n else n
  if -Int.pow 2 63 ≤ i ∧ i < Int.pow 2 63 then some (.whole i) else none

/-- A whole number in a base other than ten. -/
def basedOf (base : Nat) (cs : List Char) : Option Toml :=
  match spanGrouped base cs with
  | some (digits, []) =>
    wholeOf false (digits.foldl (fun n c => base * n + (digitValue base c).getD 0) 0)
  | _ => none

def decimalOf (word : List Char) : Option Toml :=
  let (negative, cs) := spanMinus word
  match spanDecimal cs with
  | some (digits, []) => wholeOf negative (Decimal.ofDigits digits)
  | _ => none

/-- A number with a point or an exponent; it has to be finite. -/
def realOf (negative : Bool) (digits fraction : List Char) (power : Int) : Option Toml :=
  let d : Decimal.Scientific := ⟨Decimal.ofDigits (digits ++ fraction), power - fraction.length⟩
  let x := (Decimal.Literal.mk negative d).toFloat
  if x.isFinite then some (.real x) else none

/-- The exponent in a word, of which `cs` is left. A plus ends the word, and the digits follow in
the next one. -/
def readPower (cs rest : List Char) : Option (Int × List Char) :=
  match cs with
  | [] => some (0, rest)
  | e :: cs =>
    if e ≠ 'e' ∧ e ≠ 'E' then none
    else
      let (negative, cs, rest) := match cs, rest with
        | [], '+' :: rest => let (word, rest) := spanBare rest; (false, word, rest)
        | cs, rest => let (negative, cs) := spanMinus cs; (negative, cs, rest)
      match spanGrouped 10 cs with
      | some (digits, []) =>
        let n : Int := Decimal.ofDigits digits
        some (if negative then -n else n, rest)
      | _ => none

/-- A number with an exponent and no point. -/
def readPowered (word rest : List Char) : Option (Toml × List Char) := do
  let (negative, cs) := spanMinus word
  let (digits, cs) ← spanDecimal cs
  let (power, rest) ← readPower cs rest
  (realOf negative digits [] power).map fun v => (v, rest)

/-- A number with a point, after which `rest` stands. -/
def readPointed (word rest : List Char) : Option (Toml × List Char) := do
  let (negative, cs) := spanMinus word
  let (digits, cs) ← spanDecimal cs
  if !cs.isEmpty then none
  let (after, rest) := spanBare rest
  let (fraction, cs) ← spanGrouped 10 after
  let (power, rest) ← readPower cs rest
  (realOf negative digits fraction power).map fun v => (v, rest)

/-- The words for numbers that have no digits. -/
def namedNumber? (word : List Char) : Option Float :=
  let (negative, cs) := spanMinus word
  let x : Option Float :=
    if cs = ['i', 'n', 'f'] then some (1 / 0)
    else if cs = ['n', 'a', 'n'] then some (0 / 0)
    else none
  x.map fun x => if negative then -x else x

def readNumber (word rest : List Char) : Option (Toml × List Char) :=
  match word with
  | '0' :: 'x' :: cs => (basedOf 16 cs).map fun v => (v, rest)
  | '0' :: 'o' :: cs => (basedOf 8 cs).map fun v => (v, rest)
  | '0' :: 'b' :: cs => (basedOf 2 cs).map fun v => (v, rest)
  | _ =>
    if 'e' ∈ word ∨ 'E' ∈ word then readPowered word rest
    else match rest with
      | '.' :: rest => readPointed word rest
      | _ =>
        match namedNumber? word with
        | some x => some (.real x, rest)
        | none => (decimalOf word).map fun v => (v, rest)

/-! ## Dates and times -/

/-- A mark and the word that has to follow it, if the mark is there: what was read, and the rest. -/
def spanMarked (mark : Char) (cs : List Char) : Option (List Char × List Char) :=
  match cs with
  | [] => some ([], [])
  | c :: rest =>
    if c ≠ mark then some ([], cs)
    else match spanBare rest with
      | ([], _) => none
      | (word, rest) => some (c :: word, rest)

/-- The hour after a date: a single space and a word. -/
def spanHour : List Char → List Char × List Char
  | ' ' :: cs =>
    match spanBare cs with
    | ([], _) => ([], ' ' :: cs)
    | (word, rest) => (' ' :: word, rest)
  | cs => ([], cs)

/-- The text of a date or a time that begins with `word`. Minutes come with seconds. -/
def spanMoment (word rest : List Char) : Option (List Char × List Char) := do
  let (hour, rest) := spanHour rest
  let (minute, rest) ← spanMarked ':' rest
  if minute.isEmpty then return (word ++ hour, rest)
  let (second, rest) ← spanMarked ':' rest
  if second.isEmpty then none
  let (fraction, rest) ← spanMarked '.' rest
  let (east, rest) ← spanMarked '+' rest
  let (offset, rest) ← spanMarked ':' rest
  return (word ++ hour ++ minute ++ second ++ fraction ++ east ++ offset, rest)

/-- Is a minus part of an exponent? -/
def hasNegativePower : List Char → Bool
  | 'e' :: '-' :: _ | 'E' :: '-' :: _ => true
  | [] => false
  | _ :: cs => hasNegativePower cs

/-- A word with a `T` or a minus inside is a date, and before a colon it is an hour. -/
def startsMoment (word rest : List Char) : Bool :=
  'T' ∈ word || 't' ∈ word || ('-' ∈ word.tail && !hasNegativePower word)
    || rest.head? == some ':'

/-! ## Values -/

def readWord (word rest : List Char) : Option (Draft × List Char) :=
  if word = "true".toList then some (.final (.flag true), rest)
  else if word = "false".toList then some (.final (.flag false), rest)
  else
    let numeric := match word with
      | [] => false
      | c :: _ => c = '-' || Decimal.isDigit c || (namedNumber? word).isSome
    if !numeric then none
    else if startsMoment word rest then
      (spanMoment word rest).map fun (cs, rest) => (.moment cs, rest)
    else (readNumber word rest).map fun (v, rest) => (.final v, rest)

def readScalar (cs : List Char) : Option (Draft × List Char) :=
  match cs with
  | '+' :: cs =>
    match spanBare cs with
    | ([], _) => none
    | (word, rest) => (readNumber word rest).map fun (v, rest) => (.final v, rest)
  | cs => let (word, rest) := spanBare cs; readWord word rest

end DealDesk.Toml
