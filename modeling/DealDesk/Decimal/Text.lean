import DealDesk.Decimal.Shortest

/-!
# Doubles as text

* `plain` — the shortest digits that read back, never with an exponent: `0.1`, `100`, `-0`.
* `fixed` — a given number of places, rounded from the exact value, halves to the even digit.
* `record` — the form used in records: always a point or an exponent, an exponent outside
  `10 ^ -5 … 10 ^ 16`.

The three share the digits and differ in where the point goes.
-/

namespace DealDesk.Decimal

/-! ## Digits and the point -/

/-- The digits of a decimal without trailing zeros, and how many of them stand before the point
(negative: so many zeros follow the point first). -/
def significant (d : Scientific) : List Char × Int :=
  let digits := Nat.toDigits 10 d.coefficient
  let kept := (digits.reverse.dropWhile (· = '0')).reverse
  (kept, digits.length + d.exponent)

def zeros (n : Nat) : List Char := List.replicate n '0'

/-- Positional notation; a whole number has no point. -/
def positional (digits : List Char) (point : Int) : List Char :=
  if point ≤ 0 then '0' :: '.' :: zeros (-point).toNat ++ digits
  else if digits.length ≤ point then digits ++ zeros (point.toNat - digits.length)
  else digits.take point.toNat ++ '.' :: digits.drop point.toNat

def signed (negative : Bool) (body : List Char) : String :=
  String.ofList (if negative then '-' :: body else body)

/-! ## The three forms -/

/-- The shortest text that reads back, in positional notation. -/
def plain (x : Float) : String :=
  match Parts.ofFloat x with
  | .nan => "NaN"
  | .infinite negative => signed negative "inf".toList
  | .finite negative 0 _ => signed negative ['0']
  | .finite negative mantissa exponent =>
    let (digits, point) := significant (shortest .up mantissa exponent)
    signed negative (positional digits point)

/-- `n` with the point `places` digits from its end. -/
def placed (n places : Nat) : List Char :=
  let digits := Nat.toDigits 10 n
  let padded := zeros (places + 1 - digits.length) ++ digits
  if places = 0 then padded
  else padded.take (padded.length - places) ++ '.' :: padded.drop (padded.length - places)

/-- `places` digits after the point. The sign of a value that rounds to zero is kept. -/
def fixed (places : Nat) (x : Float) : String :=
  match Parts.ofFloat x with
  | .nan => "NaN"
  | .infinite negative => signed negative "inf".toList
  | .finite negative mantissa exponent =>
    let (num, den) := ratio mantissa exponent
    signed negative (placed (roundDiv .toEven (num * Nat.pow 10 places) den) places)

/-- An exponent, which always has a sign. -/
def signedPower (power : Int) : List Char :=
  (if power < 0 then '-' else '+') :: Nat.toDigits 10 power.natAbs

/-- Digits and point in a record: `1.0`, `0.00001`, `1e-6`, `1.5e+16`. -/
def recordDigits (digits : List Char) (point : Int) : List Char :=
  if point ≤ -5 ∨ 16 < point then
    let power := signedPower (point - 1)
    match digits with
    | [d] => d :: 'e' :: power
    | d :: rest => d :: '.' :: rest ++ 'e' :: power
    | [] => []
  else if digits.length ≤ point then positional digits point ++ ['.', '0']
  else positional digits point

/-- The text of a decimal in a record; zero is `0.0`. -/
def recordText (negative : Bool) (d : Scientific) : String :=
  if d.coefficient = 0 then signed negative ['0', '.', '0']
  else
    let (digits, point) := significant d
    signed negative (recordDigits digits point)

/-- The text of a double in a record. A value that is no finite number has the text `null`. -/
def record (x : Float) : String :=
  match Parts.ofFloat x with
  | .nan | .infinite _ => "null"
  | .finite negative 0 _ => recordText negative ⟨0, 0⟩
  | .finite negative mantissa exponent =>
    recordText negative (shortest .toEven mantissa exponent)

end DealDesk.Decimal
