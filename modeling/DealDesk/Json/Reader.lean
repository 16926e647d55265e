import DealDesk.Json.Tree

/-!
# Reading JSON

* `Json.read` — the tree of the value at the front of a text, and the text after it if the value is
  complete.
* `Json.ofText` — the tree of a whole text, and whether anything but blanks follows the value.

A list of items and a list of members go on after a comma, and end at the bracket. Fuel is the length
of the text: each value, item and member takes at least one character.
-/

namespace DealDesk.Json

def isBlank (c : Char) : Bool := c = ' ' || c = '\n' || c = '\t' || c = '\r'

def skipBlanks (cs : List Char) : List Char := cs.dropWhile isBlank

/-! ## Words -/

/-- The rest of a word whose first letter has been seen. -/
def readWord : List Char → List Char → Except Fault (List Char)
  | [], cs => .ok cs
  | _ :: _, [] => .error .cut
  | w :: ws, c :: cs => if w = c then readWord ws cs else .error .malformed

/-! ## Strings -/

def hexValue (c : Char) : Option Nat :=
  if '0' ≤ c ∧ c ≤ '9' then some (c.toNat - '0'.toNat)
  else if 'a' ≤ c ∧ c ≤ 'f' then some (c.toNat - 'a'.toNat + 10)
  else if 'A' ≤ c ∧ c ≤ 'F' then some (c.toNat - 'A'.toNat + 10)
  else none

def hex4 (a b c d : Char) : Option Nat :=
  match hexValue a, hexValue b, hexValue c, hexValue d with
  | some a, some b, some c, some d => some (((a * 16 + b) * 16 + c) * 16 + d)
  | _, _, _, _ => none

def isHighSurrogate (n : Nat) : Bool := 0xD800 ≤ n && n < 0xDC00

def isLowSurrogate (n : Nat) : Bool := 0xDC00 ≤ n && n < 0xE000

def pairedSurrogates (high low : Nat) : Char :=
  Char.ofNat (0x10000 + (high - 0xD800) * 0x400 + (low - 0xDC00))

/-- The character that a letter after a backslash stands for. -/
def escaped : Char → Option Char
  | '"' => some '"'
  | '\\' => some '\\'
  | '/' => some '/'
  | 'b' => some '\x08'
  | 'f' => some '\x0c'
  | 'n' => some '\n'
  | 'r' => some '\r'
  | 't' => some '\t'
  | _ => none

inductive Scan
  /-- The string is complete; its text is missing if a surrogate is unpaired. -/
  | closed (text : Option String) (rest : List Char)
  | stopped (stop : Stop)

/-- A fault in a string; one who reads it meets an unpaired surrogate first. -/
def faultIn (paired : Bool) (f : Fault) : Scan :=
  .stopped ⟨if paired then f else .malformed, f⟩

/-- What stands where the second half of a surrogate pair is due. -/
inductive SecondHalf
  | low (n : Nat)
  | absent
  | fault (f : Fault)

/-- Where fewer than four characters are left for four digits, the text is cut off only if it also
has fewer than four bytes left. -/
def missingHex (rest : List Char) : Fault :=
  if 4 ≤ (String.ofList rest).utf8ByteSize then .malformed else .cut

/-- The second half is written like the first, with a backslash, a letter and four digits. -/
def secondHalf : List Char → SecondHalf
  | [] | ['\\'] => .fault .cut
  | '\\' :: 'u' :: a :: b :: c :: d :: _ =>
    match hex4 a b c d with
    | none => .fault .malformed
    | some n => if isLowSurrogate n then .low n else .absent
  | '\\' :: 'u' :: rest => .fault (missingHex rest)
  | _ => .absent

/-- A string after its opening quote. `done` holds what has been read, the last character first. -/
def scanString (done : List Char) (paired : Bool) (cs : List Char) : Scan :=
  match cs with
  | [] => faultIn paired .cut
  | '"' :: rest => .closed (if paired then some (String.ofList done.reverse) else none) rest
  | ['\\'] => faultIn paired .cut
  | '\\' :: 'u' :: a :: b :: c :: d :: rest =>
    match hex4 a b c d with
    | none => faultIn paired .malformed
    | some n =>
      if isLowSurrogate n then scanString done false rest
      else if isHighSurrogate n then
        match secondHalf rest with
        | .fault f => faultIn paired f
        | .low m => scanString (pairedSurrogates n m :: done) paired (rest.drop 6)
        | .absent => scanString done false rest
      else scanString (Char.ofNat n :: done) paired rest
  | '\\' :: 'u' :: rest => faultIn paired (missingHex rest)
  | '\\' :: c :: rest =>
    match escaped c with
    | some c => scanString (c :: done) paired rest
    | none => faultIn paired .malformed
  | c :: rest =>
    if c < ' ' then faultIn paired .malformed else scanString (c :: done) paired rest
termination_by cs.length
decreasing_by all_goals simp only [List.length_cons, List.length_drop]; omega

/-! ## Numbers -/

/-- Digits that are missing at the end of the text cut it off; missing before anything else, or for
one who passes over the number, they are a mistake. -/
def missingDigits : List Char → Stop
  | [] => ⟨.cut, .malformed⟩
  | _ :: _ => .malformed

/-- An exponent, if there is one, and what follows. -/
def scanPower : List Char → Except Stop (Option Int × List Char)
  | [] => .ok (none, [])
  | c :: cs =>
    if c = 'e' ∨ c = 'E' then
      let (negative, rest) := Decimal.spanSign cs
      match Decimal.spanDigits rest with
      | ([], rest) => .error (missingDigits rest)
      | (digits, rest) =>
        let n : Int := Decimal.ofDigits digits
        .ok (some (if negative then -n else n), rest)
    else .ok (none, c :: cs)

/-- Digits after a point, if there is one, and what follows. -/
def scanFraction : List Char → Except Stop (Option (List Char) × List Char)
  | '.' :: cs =>
    match Decimal.spanDigits cs with
    | ([], rest) => .error (missingDigits rest)
    | (digits, rest) => .ok (some digits, rest)
  | cs => .ok (none, cs)

def numeralOf (negative : Bool) (whole : List Char) (fraction : Option (List Char))
    (power : Option Int) : Numeral :=
  match fraction, power with
  | none, none => .whole negative (Decimal.ofDigits whole)
  | _, _ =>
    let places := fraction.getD []
    .decimal negative
      (Numeral.normal ⟨Decimal.ofDigits (whole ++ places), power.getD 0 - places.length⟩)

/-- A number: no zero stands before other digits. -/
def scanNumber (cs : List Char) : Except Stop (Numeral × List Char) :=
  let (negative, cs) := match cs with
    | '-' :: rest => (true, rest)
    | cs => (false, cs)
  match Decimal.spanDigits cs with
  | ([], rest) => .error (missingDigits rest)
  | ('0' :: _ :: _, _) => .error .malformed
  | (whole, rest) =>
    match scanFraction rest with
    | .error stop => .error stop
    | .ok (fraction, rest) =>
      match scanPower rest with
      | .error stop => .error stop
      | .ok (power, rest) => .ok (numeralOf negative whole fraction power, rest)

/-! ## Values -/

/-- A value without parts, or the start of one that has parts. -/
def readWhole (c : Char) (cs : List Char) (value : Json) (word : List Char) :
    Json × Option (List Char) :=
  match readWord word cs with
  | .ok rest => (value, some rest)
  | .error f => (.stopped (some c) ⟨f, f⟩, none)

mutual

def read : Nat → List Char → Json × Option (List Char)
  | 0, _ => (.stopped none .cut, none)
  | fuel + 1, cs =>
    match skipBlanks cs with
    | [] => (.stopped none .cut, none)
    | 'n' :: rest => readWhole 'n' rest .null ['u', 'l', 'l']
    | 't' :: rest => readWhole 't' rest (.bool true) ['r', 'u', 'e']
    | 'f' :: rest => readWhole 'f' rest (.bool false) ['a', 'l', 's', 'e']
    | '"' :: rest =>
      match scanString [] true rest with
      | .closed (some s) rest => (.text s, some rest)
      | .closed none rest => (.unpaired, some rest)
      | .stopped stop => (.stopped (some '"') stop, none)
    | '[' :: rest =>
      let (items, stop, rest) := readItems fuel true rest
      (.array items stop, rest)
    | '{' :: rest =>
      let (members, stop, rest) := readMembers fuel true rest
      (.object members stop, rest)
    | c :: rest =>
      if c = '-' || Decimal.isDigit c then
        match scanNumber (c :: rest) with
        | .ok (n, rest) => (.number n, some rest)
        | .error stop => (.stopped (some c) stop, none)
      else (.stopped (some c) .malformed, none)

/-- The items up to the closing bracket. -/
def readItems : Nat → Bool → List Char → List Json × Option Stop × Option (List Char)
  | 0, _, _ => ([], some .cut, none)
  | fuel + 1, first, cs =>
    match skipBlanks cs with
    | [] => ([], some .cut, none)
    | ']' :: rest => ([], none, some rest)
    | c :: rest =>
      if first then itemThenMore fuel (c :: rest)
      else if c = ',' then
        match skipBlanks rest with
        | ']' :: _ => ([.stopped (some ']') .malformed], none, none)
        | rest => itemThenMore fuel rest
      else ([], some .malformed, none)

def itemThenMore : Nat → List Char → List Json × Option Stop × Option (List Char)
  | 0, _ => ([], some .cut, none)
  | fuel + 1, cs =>
    match read fuel cs with
    | (item, none) => ([item], none, none)
    | (item, some rest) =>
      let (items, stop, rest) := readItems fuel false rest
      (item :: items, stop, rest)

/-- The members up to the closing brace. -/
def readMembers : Nat → Bool → List Char → List (Key × Json) × Option Stop × Option (List Char)
  | 0, _, _ => ([], some .cut, none)
  | fuel + 1, first, cs =>
    match skipBlanks cs with
    | [] => ([], some .cut, none)
    | '}' :: rest => ([], none, some rest)
    | c :: rest =>
      if first then memberThenMore fuel (c :: rest)
      else if c = ',' then memberThenMore fuel (skipBlanks rest)
      else ([], some .malformed, none)

/-- A key, a colon and a value, and the members after it. -/
def memberThenMore : Nat → List Char → List (Key × Json) × Option Stop × Option (List Char)
  | 0, _ => ([], some .cut, none)
  | fuel + 1, cs =>
    match cs with
    | [] => ([(.stopped .cut, .stopped none .cut)], none, none)
    | '"' :: rest =>
      match scanString [] true rest with
      | .stopped stop => ([(.stopped stop, .stopped (some '"') stop)], none, none)
      | .closed found rest =>
        let key := match found with
          | some s => Key.text s
          | none => .unpaired
        match skipBlanks rest with
        | [] => ([(key, .stopped none .cut)], none, none)
        | ':' :: rest =>
          match read fuel rest with
          | (value, none) => ([(key, value)], none, none)
          | (value, some rest) =>
            let (members, stop, rest) := readMembers fuel false rest
            ((key, value) :: members, stop, rest)
        | c :: _ => ([(key, .stopped (some c) .malformed)], none, none)
    | c :: _ => ([(.stopped .malformed, .stopped (some c) .malformed)], none, none)

end

/-- The tree of a text; the flag says whether more than blanks follow a complete value. -/
def ofText (text : String) : Json × Bool :=
  let cs := text.toList
  match read (3 * cs.length + 3) cs with
  | (tree, some rest) => (tree, !(skipBlanks rest).isEmpty)
  | (tree, none) => (tree, false)

end DealDesk.Json
