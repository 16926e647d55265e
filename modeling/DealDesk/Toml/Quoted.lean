import DealDesk.Json.Reader

/-!
# Quoted TOML text

* `readQuoted` — the quoted text at the front, and what follows it. Between double quotes a backslash
  begins an escape; between single quotes it stands for itself.
* Three quotes open a text of several lines: the line end after them does not count, and one or two
  quotes may stand inside. A backslash at the end of a line takes away the blanks up to the next text.
-/

namespace DealDesk.Toml

def isSpace (c : Char) : Bool := c = ' ' || c = '\t'

/-- Control characters may not stand in a text, but for the tab. -/
def isPlain (c : Char) : Bool := c = '\t' || (' ' ≤ c && c ≠ '\x7f')

/-- The character with the number that `n` hexadecimal digits give, and how much text they take
together with the letter before them. -/
def escapedNumber (n : Nat) (cs : List Char) : Option (Char × Nat) :=
  let digits := cs.take n
  if digits.length < n then none
  else do
    let values ← digits.mapM Json.hexValue
    let value := values.foldl (fun v d => 16 * v + d) 0
    if value.isValidChar then some (Char.ofNat value, n + 1) else none

/-- The character that stands after a backslash, and how much text it takes. -/
def escaped : List Char → Option (Char × Nat)
  | 'b' :: _ => some ('\x08', 1)
  | 't' :: _ => some ('\t', 1)
  | 'n' :: _ => some ('\n', 1)
  | 'f' :: _ => some ('\x0c', 1)
  | 'r' :: _ => some ('\r', 1)
  | '"' :: _ => some ('"', 1)
  | '\\' :: _ => some ('\\', 1)
  | 'u' :: cs => escapedNumber 4 cs
  | 'U' :: cs => escapedNumber 8 cs
  | _ => none

/-- The rest of a text on one line; `done` holds what was read, the last character first. -/
def scanLine (quote : Char) (done : List Char) (cs : List Char) :
    Option (List Char × List Char) :=
  match cs with
  | [] => none
  | c :: rest =>
    if c = quote then some (done.reverse, rest)
    else if c = '\\' ∧ quote = '"' then
      match escaped rest with
      | some (x, used) => scanLine quote (x :: done) (rest.drop used)
      | none => none
    else if isPlain c then scanLine quote (c :: done) rest
    else none
termination_by cs.length
decreasing_by all_goals simp only [List.length_cons, List.length_drop]; omega

/-- How many characters a backslash takes away if only blanks follow it on its line. -/
def blanksAfter (cs : List Char) : Option Nat :=
  let spaces := (cs.takeWhile isSpace).length
  if cs[spaces]? = some '\n' then
    some (cs.takeWhile fun c => isSpace c || c = '\n').length
  else none

/-- The rest of a text of several lines. -/
def scanLines (quote : Char) (done : List Char) (cs : List Char) :
    Option (List Char × List Char) :=
  match cs with
  | [] => none
  | c :: rest =>
    if c = quote then
      let more := (rest.takeWhile (· = quote)).length
      if more < 2 then scanLines quote (List.replicate (more + 1) quote ++ done) (rest.drop more)
      else
        let inside := min (more - 2) 2
        some (done.reverse ++ List.replicate inside quote, rest.drop (2 + inside))
    else if c = '\\' ∧ quote = '"' then
      match blanksAfter rest with
      | some used => scanLines quote done (rest.drop used)
      | none =>
        match escaped rest with
        | some (x, used) => scanLines quote (x :: done) (rest.drop used)
        | none => none
    else if isPlain c || c = '\n' then scanLines quote (c :: done) rest
    else none
termination_by cs.length
decreasing_by all_goals simp only [List.length_cons, List.length_drop]; omega

/-- A text, with the flag that it was opened by three quotes. -/
def readQuoted (quote : Char) (cs : List Char) : Option (String × Bool × List Char) :=
  match cs with
  | a :: b :: c :: rest =>
    if a = quote ∧ b = quote ∧ c = quote then
      let rest := match rest with
        | '\n' :: rest => rest
        | rest => rest
      (scanLines quote [] rest).map fun (s, rest) => (String.ofList s, true, rest)
    else if a = quote then
      (scanLine quote [] (b :: c :: rest)).map fun (s, rest) => (String.ofList s, false, rest)
    else none
  | a :: rest =>
    if a = quote then
      (scanLine quote [] rest).map fun (s, rest) => (String.ofList s, false, rest)
    else none
  | [] => none

end DealDesk.Toml
