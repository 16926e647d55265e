import DealDesk.Json.Reader
import DealDesk.Json.Writer
import DealDesk.Table
import DealDesk.Text.Quoted

/-!
# Records in JSON

* `Kind` — what a field may hold; `Datum` — what it holds.
* `Shape` — the fields of a kind of record in order. A record is written as an object; it is read from
  an object with its members in any order, or from the array of its fields.
* `DecodeError` — why a text is not a record of a shape, and the text of that.

Decoding walks through the tree of the text in the order of the text and reports the first thing it
cannot accept, be it a fault of the text or a value that does not fit. Members that the shape does not
name are passed over.
-/

namespace DealDesk

/-! ## Errors -/

inductive DecodeError
  | badText (f : Fault)
  | missing (field : String)
  | duplicate (field : String)
  | unknownVariant (name : String) (known : List String)
  | wrongType (found expected : String)
  | wrongValue (n : Int) (expected : String)
  | wrongLength (n : Nat) (expected : String)
  deriving DecidableEq, Repr

namespace DecodeError

def ticked (s : String) : String := "`" ++ s ++ "`"

/-- The names between which to choose. -/
def choices : List String → String
  | [] => "nothing"
  | [a] => ticked a
  | [a, b] => ticked a ++ " or " ++ ticked b
  | names => "one of " ++ String.intercalate ", " (names.map ticked)

def message : DecodeError → String
  | .badText .malformed => "malformed text"
  | .badText .cut => "text cut off"
  | .missing field => "missing field " ++ ticked field
  | .duplicate field => "duplicate field " ++ ticked field
  | .unknownVariant name known =>
    "unknown variant " ++ ticked name ++ ", expected " ++ choices known
  | .wrongType found expected => "invalid type: " ++ found ++ ", expected " ++ expected
  | .wrongValue n expected =>
    "invalid value: integer " ++ ticked (toString n) ++ ", expected " ++ expected
  | .wrongLength n expected =>
    "invalid length " ++ toString n ++ ", expected " ++ expected

end DecodeError

/-! ## Kinds of fields -/

inductive Kind
  | float
  /-- Whole numbers from `low` to `high`, under the name of their type. -/
  | int (low high : Int) (name : String)
  | text
  | flag
  | choice (names : List String)
  | optional (kind : Kind)
  deriving Repr

namespace Kind

def u32 : Kind := .int 0 (Int.pow 2 32 - 1) "u32"

def u64 : Kind := .int 0 (Int.pow 2 64 - 1) "u64"

def usize : Kind := .int 0 (Int.pow 2 64 - 1) "usize"

def i64 : Kind := .int (-Int.pow 2 63) (Int.pow 2 63 - 1) "i64"

/-- What a value of this kind is called. -/
def expected : Kind → String
  | .float => "f64"
  | .int _ _ name => name
  | .text => "a string"
  | .flag => "a boolean"
  | .choice _ => "a variant"
  | .optional k => k.expected

end Kind

inductive Datum
  | float (x : Float)
  | int (n : Int)
  | text (s : String)
  | flag (b : Bool)
  | choice (name : String)
  | absent
  | present (d : Datum)

/-! ## Decoding a value -/

namespace Json

mutual

/-- The first fault in a value that is passed over. -/
def skipFault : Json → Option Fault
  | .stopped _ stop => some stop.skipped
  | .array items stop => (skipItems items).or (stop.map (·.skipped))
  | .object members stop => (skipMembers members).or (stop.map (·.skipped))
  | _ => none

def skipItems : List Json → Option Fault
  | [] => none
  | j :: rest => (skipFault j).or (skipItems rest)

def skipMembers : List (Key × Json) → Option Fault
  | [] => none
  | (.stopped stop, _) :: _ => some stop.skipped
  | (_, j) :: rest => (skipFault j).or (skipMembers rest)

end

/-- The double of a number, which has to be finite. -/
def finite (n : Numeral) : Except DecodeError Float :=
  let x := n.toFloat
  if x.isInf then .error (.badText .malformed) else .ok x

/-- What a value is called where another was expected. -/
def found : Json → Except DecodeError String
  | .null => .ok "null"
  | .bool b => .ok ("boolean " ++ DecodeError.ticked (if b then "true" else "false"))
  | .number n =>
    match n.toInt? with
    | some i => .ok ("integer " ++ DecodeError.ticked (toString i))
    | none => (finite n).map fun x => "floating point " ++ DecodeError.ticked (Decimal.record x)
  | .text s => .ok ("string " ++ Text.quoted s)
  | .unpaired => .error (.badText .malformed)
  | .array _ _ => .ok "sequence"
  | .object _ _ => .ok "map"
  | .stopped _ stop => .error (.badText stop.read)

/-- The value is not of the kind that was expected. -/
def mismatch {α : Type} (j : Json) (expected : String) : Except DecodeError α :=
  match j.found with
  | .ok what => .error (.wrongType what expected)
  | .error e => .error e

/-- An object that names one of several variants, with its content: it has one member. A variant
may also be named by a string. -/
def decodeVariant {α : Type} (names : List String) (bare : String → Except DecodeError α)
    (content : String → Json → Except DecodeError α) (j : Json) : Except DecodeError α :=
  match j with
  | .text s => if s ∈ names then bare s else .error (.unknownVariant s names)
  | .object members stop =>
    match members with
    | [] => .error (.badText ((stop.map (·.read)).getD .malformed))
    | (.stopped s, _) :: _ => .error (.badText s.read)
    | (.unpaired, _) :: _ => .error (.badText .malformed)
    | (.text k, v) :: rest =>
      if k ∈ names then
        match content k v with
        | .error e => .error e
        | .ok a =>
          if !rest.isEmpty then .error (.badText .malformed)
          else match stop with
            | some s => .error (.badText s.read)
            | none => .ok a
      else .error (.unknownVariant k names)
  | .stopped none s | .stopped (some '"') s => .error (.badText s.read)
  | _ => .error (.badText .malformed)

end Json

/-- The content of a variant that has none. -/
def noContent (name : String) : Json → Except DecodeError Datum
  | .null => .ok (.choice name)
  | j => j.mismatch "unit"

def Kind.decode : Kind → Json → Except DecodeError Datum
  | .float, .number n => (Json.finite n).map .float
  | .int low high name, .number n =>
    match n.toInt? with
    | some i => if low ≤ i ∧ i ≤ high then .ok (.int i) else .error (.wrongValue i name)
    | none => (Json.number n).mismatch name
  | .text, .text s => .ok (.text s)
  | .flag, .bool b => .ok (.flag b)
  | .choice names, j => j.decodeVariant names (fun s => .ok (.choice s)) noContent
  | .optional _, .null => .ok .absent
  | .optional k, j => (k.decode j).map .present
  | k, j => j.mismatch k.expected

/-- The JSON form of a datum, given that of a double. -/
def Datum.toJson (float : Float → Json) : Datum → Json
  | .float x => float x
  | .int n => .number (Numeral.ofInt n)
  | .text s => .text s
  | .flag b => .bool b
  | .choice name => .text name
  | .absent => .null
  | .present d => d.toJson float

/-- A double in a record; one that is not finite is written as `null`. -/
def floatJson (x : Float) : Json :=
  match Numeral.ofFloat? x with
  | some n => .number n
  | none => .null

/-! ## Shapes -/

structure Field where
  name : String
  kind : Kind
  /-- The content of the field if no member names it. -/
  ifMissing : Option Datum := none
  /-- Its content if the array of the fields ends before it. -/
  ifShort : Option Datum := none

structure Shape where
  title : String
  fields : List Field

namespace Shape

def describe (s : Shape) : String :=
  let n := s.fields.length
  "struct " ++ s.title ++ " with " ++ toString n ++ if n = 1 then " element" else " elements"

/-- Walks through the members; `got` holds the fields read so far. -/
def decodeMembers (fields : List Field) (stop : Option Stop) (got : Table String Datum) :
    List (Key × Json) → Except DecodeError (Table String Datum)
  | [] =>
    match stop with
    | some s => .error (.badText s.read)
    | none => .ok got
  | (.stopped s, _) :: _ => .error (.badText s.read)
  | (.unpaired, _) :: _ => .error (.badText .malformed)
  | (.text k, v) :: rest =>
    match fields.find? fun f => f.name = k with
    | none =>
      match v.skipFault with
      | some f => .error (.badText f)
      | none => decodeMembers fields stop got rest
    | some f =>
      if (got.get? k).isSome then .error (.duplicate k)
      else match f.kind.decode v with
        | .error e => .error e
        | .ok d => decodeMembers fields stop (got.put k d) rest

/-- The fields in order; the first that is missing is reported. -/
def collect (got : Table String Datum) : List Field → Except DecodeError (List Datum)
  | [] => .ok []
  | f :: rest =>
    match (got.get? f.name).or f.ifMissing with
    | none => .error (.missing f.name)
    | some d => (collect got rest).map (d :: ·)

/-- Walks through the items, of which `n` have been read. -/
def decodeItems (what : String) (stop : Option Stop) (n : Nat) :
    List Field → List Json → Except DecodeError (List Datum)
  | [], [] =>
    match stop with
    | some s => .error (.badText s.read)
    | none => .ok []
  | [], _ :: _ => .error (.badText .malformed)
  | f :: fields, [] =>
    match stop, f.ifShort with
    | some s, _ => .error (.badText s.read)
    | none, some d => (decodeItems what stop (n + 1) fields []).map (d :: ·)
    | none, none => .error (.wrongLength n what)
  | f :: fields, j :: items =>
    match f.kind.decode j with
    | .error e => .error e
    | .ok d => (decodeItems what stop (n + 1) fields items).map (d :: ·)

def decode (s : Shape) : Json → Except DecodeError (List Datum)
  | .object members stop =>
    match decodeMembers s.fields stop [] members with
    | .error e => .error e
    | .ok got => collect got s.fields
  | .array items stop => decodeItems s.describe stop 0 s.fields items
  | j => j.mismatch ("struct " ++ s.title)

def encode (s : Shape) (float : Float → Json) (data : List Datum) : Json :=
  Json.ofMembers ((s.fields.zip data).map fun (f, d) => (f.name, d.toJson float))

end Shape

/-- Decodes a whole text; nothing but blanks may follow the value. -/
def decodeText {α : Type} (decode : Json → Except DecodeError α) (text : String) :
    Except DecodeError α :=
  let (tree, more) := Json.ofText text
  match decode tree with
  | .error e => .error e
  | .ok a => if more then .error (.badText .malformed) else .ok a

end DealDesk
