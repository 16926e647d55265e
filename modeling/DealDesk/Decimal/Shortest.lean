import DealDesk.Decimal.Binary

/-!
# The fewest digits that read back

* `Scientific` — a decimal `coefficient · 10 ^ exponent`.
* `Interval` — the numbers that round to a given positive double, in quarters of its last place.
* `shortest` — of the decimals in that interval with the fewest digits, the one nearest to the
  double.

On the grid of a given number of digits only the two neighbours of the double can be nearest, so
`shortest` tests these for one digit, for two, and so on up to seventeen, all in exact arithmetic.
-/

namespace DealDesk.Decimal

structure Scientific where
  coefficient : Nat
  exponent : Int
  deriving DecidableEq, Repr

/-- How many digits `n` is written with; zero is written with one. -/
def digitCount (n : Nat) : Nat := (Nat.toDigits 10 n).length

/-- The least `k` with `num / den < 10 ^ k`. -/
def magnitude (num den : Nat) : Int :=
  if den ≤ num then digitCount (num / den) else 1 - digitCount ((den - 1) / num)

/-! ## The numbers that round to a double -/

/-- `low · unit ≤ x ≤ high · unit`, with the ends included iff `closed`; `unit` is `num / den`. -/
structure Interval where
  low : Nat
  middle : Nat
  high : Nat
  closed : Bool
  num : Nat
  den : Nat

/-- The gap below a power of two is half the gap above it, except at the least exponent. -/
def Interval.ofParts (mantissa : Nat) (exponent : Int) : Interval :=
  let narrow := mantissa = Nat.pow 2 52 ∧ -1074 < exponent
  let (num, den) := ratio 1 (exponent - 2)
  { low := if narrow then 4 * mantissa - 1 else 4 * mantissa - 2
    middle := 4 * mantissa
    high := 4 * mantissa + 2
    closed := mantissa % 2 = 0
    num := num
    den := den }

/-- The powers of ten that bring `10 ^ exponent` to a fraction. -/
def tenths (exponent : Int) : Nat × Nat :=
  (Nat.pow 10 exponent.toNat, Nat.pow 10 (-exponent).toNat)

/-- Does the decimal lie in the interval? -/
def Interval.contains (i : Interval) (d : Scientific) : Bool :=
  let (up, down) := tenths d.exponent
  let value := d.coefficient * up * i.den
  let low := i.low * i.num * down
  let high := i.high * i.num * down
  if i.closed then low ≤ value && value ≤ high else low < value && value < high

/-! ## The search -/

/-- The neighbour of the double on the grid `10 ^ exponent` that lies in the interval; the nearer
one if both do. -/
def Interval.onGrid (tie : Tie) (i : Interval) (exponent : Int) : Option Scientific :=
  let (up, down) := tenths exponent
  let num := i.middle * i.num * down
  let den := up * i.den
  let below : Scientific := ⟨num / den, exponent⟩
  let above : Scientific := ⟨num / den + 1, exponent⟩
  match i.contains below, i.contains above with
  | true, true => some ⟨roundDiv tie num den, exponent⟩
  | true, false => some below
  | false, true => some above
  | false, false => none

/-- The shortest decimal that rounds to `mantissa · 2 ^ exponent`, for a positive mantissa. -/
def shortest (tie : Tie) (mantissa : Nat) (exponent : Int) : Scientific :=
  let i := Interval.ofParts mantissa exponent
  let k := magnitude (i.middle * i.num) i.den
  let found := (List.range 17).findSome? fun (n : Nat) => i.onGrid tie (k - (n + 1 : Nat))
  found.getD ⟨mantissa * Nat.pow 2 exponent.toNat, 0⟩

end DealDesk.Decimal
