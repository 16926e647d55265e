/-!
# Doubles as exact numbers

* `Parts` — a double taken apart: no number, an infinity, or `± mantissa · 2 ^ exponent`.
* `Parts.ofBits` reads the parts off the sixty-four bits, `Parts.ofFloat` off the double.
* `roundDiv` — the integer nearest to a quotient, with a stated rule for ties.
* `nearestInteger` — the double that is the nearest integer, halves going away from zero.
-/

namespace DealDesk.Decimal

/-! ## Parts -/

inductive Parts
  | nan
  | infinite (negative : Bool)
  | finite (negative : Bool) (mantissa : Nat) (exponent : Int)
  deriving DecidableEq, Repr

/-- One sign bit, eleven bits of biased exponent, fifty-two bits of fraction. -/
def Parts.ofBits (bits : UInt64) : Parts :=
  let word := bits.toNat
  let negative := decide (Nat.pow 2 63 ≤ word)
  let field : Nat := word / Nat.pow 2 52 % 2048
  let fraction : Nat := word % Nat.pow 2 52
  if field = 2047 then
    if fraction = 0 then .infinite negative else .nan
  else if field = 0 then
    .finite negative fraction (-1074)
  else
    .finite negative (Nat.pow 2 52 + fraction) ((field : Int) - 1075)

def Parts.ofFloat (x : Float) : Parts := Parts.ofBits x.toBits

/-- The numerator and denominator of `mantissa · 2 ^ exponent`. -/
def ratio (mantissa : Nat) (exponent : Int) : Nat × Nat :=
  (mantissa * Nat.pow 2 exponent.toNat, Nat.pow 2 (-exponent).toNat)

/-! ## Rounding a quotient -/

/-- Where an exact half goes. -/
inductive Tie
  | up
  | toEven
  deriving DecidableEq, Repr

/-- The integer nearest to `num / den`. -/
def roundDiv (tie : Tie) (num den : Nat) : Nat :=
  let floor := num / den
  let rest := 2 * (num % den)
  if rest < den then floor
  else if den < rest then floor + 1
  else match tie with
    | .up => floor + 1
    | .toEven => floor + floor % 2

/-- The nearest integer as a double; a half goes away from zero. -/
def nearestInteger (x : Float) : Float :=
  match Parts.ofFloat x with
  | .finite negative mantissa exponent =>
    if 0 ≤ exponent then x
    else
      let (num, den) := ratio mantissa exponent
      let n := Float.ofNat (roundDiv .up num den)
      if negative then -n else n
  | _ => x

end DealDesk.Decimal
