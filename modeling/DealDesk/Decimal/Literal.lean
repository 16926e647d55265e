import DealDesk.Decimal.Shortest

/-!
# Reading decimal numerals

* `Literal` — a numeral taken apart: sign, digits, power of ten.
* `Literal.toFloat` — the nearest double; too large is infinite, too small is zero.
* `readSigned` reads the numerals people type: `12`, `+.5`, `5.`, `1e-3`, `inf`, `NaN`.
* `readWhole` reads a whole number below a bound.
-/

namespace DealDesk.Decimal

structure Literal where
  negative : Bool
  value : Scientific
  deriving DecidableEq, Repr

/-- Every double below `10 ^ -330` is zero and every one above `10 ^ 310` is infinite, so larger
powers of ten are never computed. -/
def Scientific.toFloat (d : Scientific) : Float :=
  let size := digitCount d.coefficient + d.exponent
  if d.coefficient = 0 ∨ size < -330 then 0
  else if 310 < size then 1 / 0
  else Float.ofScientific d.coefficient (decide (d.exponent < 0)) d.exponent.natAbs

def Literal.toFloat (l : Literal) : Float :=
  if l.negative then -l.value.toFloat else l.value.toFloat

/-! ## Digits -/

def isDigit (c : Char) : Bool := '0' ≤ c && c ≤ '9'

/-- The number that a list of decimal digits stands for. -/
def ofDigits (digits : List Char) : Nat :=
  digits.foldl (fun n c => 10 * n + (c.toNat - '0'.toNat)) 0

/-- Splits off the digits at the front. -/
def spanDigits (cs : List Char) : List Char × List Char :=
  (cs.takeWhile isDigit, cs.dropWhile isDigit)

/-- A sign, if there is one: is it a minus, and what follows. -/
def spanSign : List Char → Bool × List Char
  | '-' :: rest => (true, rest)
  | '+' :: rest => (false, rest)
  | cs => (false, cs)

/-! ## Numerals -/

/-- An exponent part up to the end of the text; an absent one is zero. -/
def readPower : List Char → Option Int
  | [] => some 0
  | c :: cs =>
    if c = 'e' ∨ c = 'E' then
      let (negative, rest) := spanSign cs
      match spanDigits rest with
      | ([], _) => none
      | (digits, []) =>
        let n : Int := ofDigits digits
        some (if negative then -n else n)
      | _ => none
    else none

/-- Digits, a point, digits and an exponent; one digit at least, before or after the point. -/
def readUnsigned (cs : List Char) : Option Scientific :=
  let (whole, rest) := spanDigits cs
  let (fraction, rest) := match rest with
    | '.' :: rest => spanDigits rest
    | rest => ([], rest)
  if whole.isEmpty && fraction.isEmpty then none
  else (readPower rest).map fun power =>
    ⟨ofDigits (whole ++ fraction), power - fraction.length⟩

/-- A double, as typed; the words for infinity and for no number are read in any case. -/
def readSigned (text : String) : Option Float :=
  let (negative, rest) := spanSign text.toList
  let word := String.ofList (rest.map Char.toLower)
  let magnitude :=
    if word = "inf" ∨ word = "infinity" then some (1 / 0)
    else if word = "nan" then some (0 / 0)
    else (readUnsigned rest).map Scientific.toFloat
  magnitude.map fun x => if negative then -x else x

/-- A whole number below `bound`, with an optional plus. -/
def readWhole (bound : Nat) (text : String) : Option Nat :=
  let digits := match text.toList with
    | '+' :: rest => rest
    | cs => cs
  if digits.isEmpty || !digits.all isDigit then none
  else
    let n := ofDigits digits
    if n < bound then some n else none

end DealDesk.Decimal
