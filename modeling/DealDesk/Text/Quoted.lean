import DealDesk.Text.Hidden

/-!
# Quoted text

* `quoted` — a text between quotes in which every character can be told by sight: quotes and
  backslashes are escaped, and so are hidden characters.
-/

namespace DealDesk.Text

/-- A character by its number, in lower-case hexadecimal digits without leading zeros. -/
def byNumber (c : Char) : List Char :=
  ['\\', 'u', '\x7b'] ++ Nat.toDigits 16 c.toNat ++ ['\x7d']

def showChar (c : Char) : List Char :=
  if c = '\x00' then ['\\', '0']
  else if c = '\t' then ['\\', 't']
  else if c = '\n' then ['\\', 'n']
  else if c = '\r' then ['\\', 'r']
  else if c = '"' then ['\\', '"']
  else if c = '\\' then ['\\', '\\']
  else if isHidden c then byNumber c
  else [c]

def quoted (s : String) : String :=
  String.ofList ('"' :: s.toList.flatMap showChar ++ ['"'])

end DealDesk.Text
