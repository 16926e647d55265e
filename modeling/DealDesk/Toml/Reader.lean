import DealDesk.Toml.Block
import DealDesk.Toml.Quoted
import DealDesk.Toml.Scalar

/-!
# Reading TOML

* `Toml.readKey` — a key, dotted or not; `Toml.readValue` — a value.
* `Toml.readLine` — the next line that says something.
* `Toml.ofText?` — the entries of a document, if it is well formed.

Fuel is the length of the text: every line, value and entry takes at least one character.
-/

namespace DealDesk.Toml

def skipSpaces (cs : List Char) : List Char := cs.dropWhile isSpace

/-- A comment ends before the first control character, which has to be a line end. -/
def skipComment : List Char → List Char
  | '#' :: cs => cs.dropWhile fun c => c = '\t' || ' ' ≤ c
  | cs => cs

/-- Nothing but blanks and a comment up to the end of the line. -/
def endLine (cs : List Char) : Option (List Char) :=
  match skipComment (skipSpaces cs) with
  | [] => some []
  | c :: rest => if c = '\n' then some rest else none

/-- Passes over blanks, line ends and comments. -/
def skipLines : Nat → List Char → List Char
  | 0, cs => cs
  | fuel + 1, cs =>
    match skipSpaces cs with
    | '\n' :: rest => skipLines fuel rest
    | '#' :: rest =>
      match endLine ('#' :: rest) with
      | some rest => skipLines fuel rest
      | none => '#' :: rest
    | cs => cs

/-- The text after a character that has to come next. -/
def expect (c : Char) : List Char → Option (List Char)
  | d :: rest => if d = c then some rest else none
  | [] => none

/-! ## Keys -/

/-- One part of a key: a bare word, or a quoted text on one line. -/
def readPart (cs : List Char) : Option (String × List Char) :=
  match cs with
  | [] => none
  | c :: _ =>
    if c = '"' ∨ c = '\'' then
      match readQuoted c cs with
      | some (s, false, rest) => some (s, rest)
      | _ => none
    else
      match spanBare cs with
      | ([], _) => none
      | (word, rest) => some (String.ofList word, rest)

/-- Parts with points between them; blanks may stand around them. -/
def readKey : Nat → List Char → Option (List String × List Char)
  | 0, _ => none
  | fuel + 1, cs => do
    let (part, rest) ← readPart (skipSpaces cs)
    match skipSpaces rest with
    | '.' :: rest =>
      let (parts, rest) ← readKey fuel rest
      some (part :: parts, rest)
    | rest => some ([part], rest)

/-! ## Values -/

mutual

def readValue : Nat → List Char → Option (Draft × List Char)
  | 0, _ => none
  | fuel + 1, cs =>
    match cs with
    | [] => none
    | '[' :: rest => (readItems fuel rest).map fun (items, rest) => (.list items, rest)
    | '{' :: rest =>
      match skipSpaces rest with
      | '}' :: rest => some (.table [], rest)
      | rest => (readFields fuel [] rest).map fun (t, rest) => (.table t, rest)
    | c :: _ =>
      if c = '"' ∨ c = '\'' then
        (readQuoted c cs).map fun (s, _, rest) => (.final (.text s), rest)
      else readScalar cs

/-- Items up to the closing bracket, over several lines; a comma may follow the last. -/
def readItems : Nat → List Char → Option (List Draft × List Char)
  | 0, _ => none
  | fuel + 1, cs =>
    match skipLines cs.length cs with
    | ']' :: rest => some ([], rest)
    | cs => do
      let (item, rest) ← readValue fuel cs
      match skipLines rest.length rest with
      | ',' :: rest =>
        let (items, rest) ← readItems fuel rest
        some (item :: items, rest)
      | ']' :: rest => some ([item], rest)
      | _ => none

/-- Entries up to the closing brace, on one line; no comma follows the last. -/
def readFields : Nat → List (String × Draft) → List Char →
    Option (List (String × Draft) × List Char)
  | 0, _, _ => none
  | fuel + 1, t, cs => do
    let (key, rest) ← readKey cs.length cs
    let rest ← expect '=' rest
    let (v, rest) ← readValue fuel (skipSpaces rest)
    let t ← Draft.addEntry v key t
    match skipSpaces rest with
    | '}' :: rest => some (t, rest)
    | ',' :: rest => readFields fuel t rest
    | _ => none

end

/-! ## Documents -/

inductive Line
  /-- The header of a table, `element` if it is one of an array. -/
  | header (element : Bool) (path : List String)
  | entry (path : List String) (v : Draft)

def readHeader (cs : List Char) : Option (Line × List Char) := do
  let (element, cs) := match cs with
    | '[' :: rest => (true, rest)
    | rest => (false, rest)
  let (path, rest) ← readKey cs.length cs
  let rest ← expect ']' rest
  let rest ← if element then expect ']' rest else some rest
  let rest ← endLine rest
  some (.header element path, rest)

def readEntry (cs : List Char) : Option (Line × List Char) := do
  let (path, rest) ← readKey cs.length cs
  let rest ← expect '=' rest
  let (v, rest) ← readValue (2 * rest.length + 1) (skipSpaces rest)
  let rest ← endLine rest
  some (.entry path v, rest)

def readLine : List Char → Option (Line × List Char)
  | '[' :: rest => readHeader rest
  | cs => readEntry cs

/-- The block at hand with the lines from here on, and the blocks after it. -/
def readBlocks : Nat → Block → List Char → Option (List Block)
  | 0, _, _ => none
  | fuel + 1, block, cs =>
    match skipLines cs.length cs with
    | [] => some [block]
    | cs => do
      let (line, rest) ← readLine cs
      match line with
      | .header element path =>
        let blocks ← readBlocks fuel ⟨path, element, []⟩ rest
        some (block :: blocks)
      | .entry key v =>
        let entries ← Draft.addEntry v key block.entries
        readBlocks fuel { block with entries := entries } rest

/-- Every line end is a single character. -/
def foldLineEnds : List Char → List Char
  | '\r' :: '\n' :: cs => '\n' :: foldLineEnds cs
  | c :: cs => c :: foldLineEnds cs
  | [] => []

/-- A byte order mark may stand first. -/
def ofText? (text : String) : Option (List (String × Toml)) :=
  let cs := match text.toList with
    | '\uFEFF' :: cs => foldLineEnds cs
    | cs => foldLineEnds cs
  (readBlocks (cs.length + 1) ⟨[], false, []⟩ cs).bind Block.document

end DealDesk.Toml
