import DealDesk.Json.Tree

/-!
# Writing JSON

* `Json.write` — the text of a tree without blanks; members keep their order.
* `writeString` — quotes, backslashes and control characters are escaped, all else stands as it is.
-/

namespace DealDesk.Json

def escape (c : Char) : List Char :=
  if c = '"' then ['\\', '"']
  else if c = '\\' then ['\\', '\\']
  else if c = '\x08' then ['\\', 'b']
  else if c = '\x0c' then ['\\', 'f']
  else if c = '\n' then ['\\', 'n']
  else if c = '\r' then ['\\', 'r']
  else if c = '\t' then ['\\', 't']
  else if c < ' ' then
    ['\\', 'u', '0', '0', Nat.digitChar (c.toNat / 16), Nat.digitChar (c.toNat % 16)]
  else [c]

def writeString (s : String) : List Char := '"' :: s.toList.flatMap escape ++ ['"']

def writeKey : Key → List Char
  | .text s => writeString s
  | .unpaired | .stopped _ => writeString ""

mutual

/-- A place where the text ended badly has no text of its own; it is written as `null`. -/
def write : Json → List Char
  | .null | .unpaired | .stopped _ _ => ['n', 'u', 'l', 'l']
  | .bool true => ['t', 'r', 'u', 'e']
  | .bool false => ['f', 'a', 'l', 's', 'e']
  | .number n => n.text.toList
  | .text s => writeString s
  | .array items _ => '[' :: writeItems items
  | .object members _ => '{' :: writeMembers members

def writeItems : List Json → List Char
  | [] => [']']
  | [j] => write j ++ [']']
  | j :: rest => write j ++ ',' :: writeItems rest

def writeMembers : List (Key × Json) → List Char
  | [] => ['}']
  | [(k, j)] => writeKey k ++ ':' :: write j ++ ['}']
  | (k, j) :: rest => writeKey k ++ ':' :: write j ++ ',' :: writeMembers rest

end

def toText (j : Json) : String := String.ofList (write j)

end DealDesk.Json
