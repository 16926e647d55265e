import DealDesk.Decimal.Literal

/-!
# Keys of settings

* `Address` — what a key names: a setting as a whole, something inside a setting taken as a map, or
  something inside it taken as a list.
* `Address.ofKey` — a name, then parts after points and indices in brackets. A key that is no such
  path is a name as it stands.
-/

namespace DealDesk

inductive Address
  | whole (name : String)
  | member (name : String)
  | item (name : String)
  deriving DecidableEq, Repr

namespace Address

def isNameChar (c : Char) : Bool :=
  ('a' ≤ c && c ≤ 'z') || ('A' ≤ c && c ≤ 'Z') || Decimal.isDigit c
    || c = ' ' || c = '_' || c = '-'

/-- The text after an index in brackets; blanks may stand around the number. -/
def skipIndex (cs : List Char) : Option (List Char) :=
  let (negative, rest) := match cs.dropWhile (fun c => c = ' ' || c = '\t') with
    | '-' :: rest => (true, rest)
    | rest => (false, rest)
  let (digits, rest) := Decimal.spanDigits rest
  let bound := if negative then Nat.pow 2 63 + 1 else Nat.pow 2 63
  match digits, rest.dropWhile (fun c => c = ' ' || c = '\t') with
  | _ :: _, ']' :: rest => if Decimal.ofDigits digits < bound then some rest else none
  | _, _ => none

/-- Do only parts and indices follow? -/
def isTail : Nat → List Char → Bool
  | _, [] => true
  | 0, _ => false
  | fuel + 1, '.' :: cs =>
    !(cs.takeWhile isNameChar).isEmpty && isTail fuel (cs.dropWhile isNameChar)
  | fuel + 1, '[' :: cs =>
    match skipIndex cs with
    | some rest => isTail fuel rest
    | none => false
  | _, _ => false

def ofKey (key : String) : Address :=
  let cs := key.toList
  let name := String.ofList (cs.takeWhile isNameChar)
  let rest := cs.dropWhile isNameChar
  if name.isEmpty || !isTail rest.length rest then .whole key
  else match rest with
    | [] => .whole key
    | '[' :: _ => .item name
    | _ => .member name

end Address

end DealDesk
