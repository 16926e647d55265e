import DealDesk.Text.Letters

/-!
# Lower case

* `lowerCase` — a text in lower case. A sigma at the end of a word has a form of its own, and the
  capital `I` with a dot becomes an `i` and a dot.
-/

namespace DealDesk.Text

/-- The lower-case form of one character by itself. -/
def lowerChar (c : Char) : List Char :=
  if c = 'İ' then ['i', '\u0307']
  else match lowerRuns.find? fun r => r.holds c.toNat with
    | some r => [Char.ofNat (c.toNat + r.offset).toNat]
    | none => [c]

/-- Does a word end between what stands before, the nearest character first, and what follows? -/
def endsWord (before after : List Char) : Bool :=
  (before.dropWhile isSkipped).head?.any isCased && !(after.dropWhile isSkipped).head?.any isCased

def lowerAfter (before : List Char) : List Char → List Char
  | [] => []
  | c :: rest =>
    let form := if c = 'Σ' then [if endsWord before rest then 'ς' else 'σ'] else lowerChar c
    form ++ lowerAfter (c :: before) rest

def lowerCase (s : String) : String := String.ofList (lowerAfter [] s.toList)

end DealDesk.Text
