import DealDesk.Decimal.Literal
import DealDesk.Decimal.Text

/-!
# JSON trees

* `Json` — what a JSON text says, in the order in which it says it, up to the end or up to the first
  place where it is not well formed.
* `Fault` — how a text can end badly: it is malformed, or it is cut off.
* `Numeral` — a number as written: whole, or with a point or an exponent.

A tree of a bad text is kept so that whoever decodes it meets the fault where the text has it, after
everything that comes before. Passing over a value asks less of it than reading it, so a `Stop` tells
the two apart.
-/

namespace DealDesk

inductive Numeral
  | whole (negative : Bool) (n : Nat)
  | decimal (negative : Bool) (value : Decimal.Scientific)
  deriving DecidableEq, Repr

namespace Numeral

/-- The same number without zeros at the end of its coefficient. -/
def normal (d : Decimal.Scientific) : Decimal.Scientific :=
  let (digits, point) := Decimal.significant d
  if d.coefficient = 0 then ⟨0, 0⟩ else ⟨Decimal.ofDigits digits, point - digits.length⟩

/-- The number that is written for a finite double. -/
def ofFloat? (x : Float) : Option Numeral :=
  match Decimal.Parts.ofFloat x with
  | .finite negative 0 _ => some (.decimal negative ⟨0, 0⟩)
  | .finite negative mantissa exponent =>
    some (.decimal negative (normal (Decimal.shortest .toEven mantissa exponent)))
  | _ => none

def ofInt (n : Int) : Numeral := .whole (decide (n < 0)) n.natAbs

def toFloat : Numeral → Float
  | .whole negative n => Decimal.Literal.toFloat ⟨negative, ⟨n, 0⟩⟩
  | .decimal negative value => Decimal.Literal.toFloat ⟨negative, value⟩

/-- A whole number that fits 64 bits, signed or not; a negative zero does not count as one. -/
def toInt? : Numeral → Option Int
  | .whole false n => if n < Nat.pow 2 64 then some n else none
  | .whole true n => if 0 < n ∧ n ≤ Nat.pow 2 63 then some (-n) else none
  | .decimal _ _ => none

def text : Numeral → String
  | .whole negative n => Decimal.signed negative (Nat.toDigits 10 n)
  | .decimal negative value => Decimal.recordText negative value

end Numeral

inductive Fault
  | malformed
  | cut
  deriving DecidableEq, Repr

/-- The end of a bad text: for one who reads the value there, and for one who passes over it. -/
structure Stop where
  read : Fault
  skipped : Fault
  deriving DecidableEq, Repr

namespace Stop

def malformed : Stop := ⟨.malformed, .malformed⟩

def cut : Stop := ⟨.cut, .cut⟩

end Stop

inductive Key
  | text (s : String)
  /-- Half of a surrogate pair stands alone in it. -/
  | unpaired
  /-- There is no key that can be read. -/
  | stopped (stop : Stop)
  deriving DecidableEq, Repr

inductive Json
  | null
  | bool (b : Bool)
  | number (n : Numeral)
  | text (s : String)
  /-- A string in which half of a surrogate pair stands alone. -/
  | unpaired
  /-- Items, and where the text ends badly after the last one, if it does. -/
  | array (items : List Json) (stop : Option Stop)
  | object (members : List (Key × Json)) (stop : Option Stop)
  /-- The text ends badly in this value, whose first character is given if it has one. -/
  | stopped (head : Option Char) (stop : Stop)

namespace Json

/-- An object that is complete. -/
def ofMembers (members : List (String × Json)) : Json :=
  .object (members.map fun (k, v) => (.text k, v)) none

def ofItems (items : List Json) : Json := .array items none

/-- The first member of that name. -/
def member? (j : Json) (name : String) : Option Json :=
  match j with
  | .object members _ => (members.find? fun m => m.1 = .text name).map Prod.snd
  | _ => none

end Json

end DealDesk
