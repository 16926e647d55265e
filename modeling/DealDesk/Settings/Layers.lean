import DealDesk.Settings
import DealDesk.Settings.Address
import DealDesk.Settings.FileName
import DealDesk.Text.LowerCase
import DealDesk.Text.Quoted
import DealDesk.Toml.Reader

/-!
# Layered settings

* `Layer` — settings by name, each with the place it came from. Three layers lie one on the other:
  given settings, a file, and the environment.
* `Surroundings` — the files that can be read, and the environment. `Surroundings.found` has the files
  that a name stands for.
* `Settings.load` — the settings of the three layers, checked.
* `Entry.toCount`, `Entry.toFlag` — how a setting of another type is taken for a number or a flag.

What fails is reported in this order: given settings too large to be held, the file, the types of
the settings one by one, and the check.
-/

namespace DealDesk

/-! ## Entries -/

inductive Content
  | whole (n : Int)
  | real (x : Float)
  | flag (b : Bool)
  | text (s : String)
  | sequence
  | map

structure Entry where
  content : Content
  origin : Option String

namespace Entry

def ticked (s : String) : String := "`" ++ s ++ "`"

/-- What a content is called where another was expected. -/
def found : Content → String
  | .whole n => "integer 64 bit " ++ ticked (toString n)
  | .real x => "floating point " ++ ticked (Decimal.plain x)
  | .flag b => "boolean " ++ ticked (if b then "true" else "false")
  | .text s => "string " ++ Text.quoted s
  | .sequence => "sequence"
  | .map => "map"

def mismatch (key : String) (origin : Option String) (c : Content) (expected : String) :
    SettingsError :=
  let place := match origin with
    | some o => " in " ++ o
    | none => ""
  .wrongType ("invalid type: " ++ found c ++ ", expected " ++ expected ++ " for key " ++ ticked key
    ++ place)

def yes : List String := ["true", "on", "yes"]

def no : List String := ["false", "off", "no"]

/-- The nearest whole number, a half going up, within 64 bits; zero for no number. -/
def nearestCount (x : Float) : Nat :=
  match Decimal.Parts.ofFloat x with
  | .nan => 0
  | .infinite negative => if negative then 0 else Nat.pow 2 64 - 1
  | .finite negative mantissa exponent =>
    let (num, den) := Decimal.ratio mantissa exponent
    if negative then 0 else min (Decimal.roundDiv .up num den) (Nat.pow 2 64 - 1)

/-- A number from zero to `2 ^ 64 - 1`. -/
def toCount (key : String) (e : Entry) : Except SettingsError Nat :=
  let wrong := mismatch key e.origin e.content
  match e.content with
  | .whole n => if 0 ≤ n then .ok n.toNat else .error (wrong "an unsigned 64 bit or less integer")
  | .real x => .ok (nearestCount x)
  | .flag b => .ok (if b then 1 else 0)
  | .text s =>
    let word := Text.lowerCase s
    if word ∈ yes then .ok 1
    else if word ∈ no then .ok 0
    else match Decimal.readWhole (Nat.pow 2 64) s with
      | some n => .ok n
      | none => .error (wrong "an integer")
  | .sequence | .map => .error (wrong "an integer")

def toFlag (key : String) (e : Entry) : Except SettingsError Bool :=
  let wrong c := mismatch key e.origin c "a boolean"
  match e.content with
  | .whole n => .ok (n ≠ 0)
  | .real x => .ok (x != 0)
  | .flag b => .ok b
  | .text s =>
    let word := Text.lowerCase s
    if word ∈ "1" :: yes then .ok true
    else if word ∈ "0" :: no then .ok false
    else .error (wrong (.text word))
  | c => .error (wrong c)

end Entry

/-! ## Layers -/

abbrev Layer := Table String Entry

namespace Layer

/-- A table takes the place of a setting only if it has entries; then it counts as written here. -/
def putValue (origin : String) (name : String) (v : Toml) (l : Layer) : Layer :=
  match v with
  | .table [] => l
  | .table _ => l.put name ⟨.map, none⟩
  | .whole n => l.put name ⟨.whole n, some origin⟩
  | .real x => l.put name ⟨.real x, some origin⟩
  | .flag b => l.put name ⟨.flag b, some origin⟩
  | .text s => l.put name ⟨.text s, some origin⟩
  | .list _ => l.put name ⟨.sequence, some origin⟩

/-- A setting that something is put into becomes a map or a list; what is one already stays it. -/
def putInside (content : Content) (name : String) (l : Layer) : Layer :=
  match content, l.get? name with
  | .sequence, some ⟨.sequence, _⟩ => l
  | content, _ => l.put name ⟨content, none⟩

def putKey (origin key : String) (v : Toml) (l : Layer) : Layer :=
  match Address.ofKey key with
  | .whole name => putValue origin name v l
  | .member name => putInside .map name l
  | .item name => putInside .sequence name l

/-- The layer with entries on top. -/
def withEntries (origin : String) (entries : List (String × Toml)) (l : Layer) : Layer :=
  entries.foldl (fun l (key, v) => putKey origin key v l) l

/-! ## The first layer -/

/-- Whole numbers are held in 64 bits with a sign. -/
def maxHeld : Nat := Nat.pow 2 63 - 1

def held (n : Nat) : Except SettingsError Entry :=
  if n ≤ maxHeld then .ok ⟨.whole n, none⟩ else .error (.aboveMaximum n maxHeld)

def ofSettings (s : Settings) : Except SettingsError Layer := do
  let workers ← held s.workers.toNat
  let maxRetries ← held s.maxRetries.toNat
  let retryBaseMs ← held s.retryBaseMs.toNat
  let retryMaxMs ← held s.retryMaxMs.toNat
  return [("workers", workers), ("max_retries", maxRetries), ("retry_base_ms", retryBaseMs),
    ("retry_max_ms", retryMaxMs), ("retry_rejections", ⟨.flag s.retryRejections, none⟩)]

/-! ## Settings of a layer -/

def count (l : Layer) (key : String) (absent : Nat) : Except SettingsError Nat :=
  match l.get? key with
  | some e => e.toCount key
  | none => .ok absent

def flag (l : Layer) (key : String) (absent : Bool) : Except SettingsError Bool :=
  match l.get? key with
  | some e => e.toFlag key
  | none => .ok absent

/-- Of a number of retries the remainder modulo `2 ^ 32` is kept. -/
def toSettings (l : Layer) : Except SettingsError Settings := do
  let base := Settings.standard
  let workers ← l.count "workers" base.workers.toNat
  let maxRetries ← l.count "max_retries" base.maxRetries.toNat
  let retryBaseMs ← l.count "retry_base_ms" base.retryBaseMs.toNat
  let retryMaxMs ← l.count "retry_max_ms" base.retryMaxMs.toNat
  let retryRejections ← l.flag "retry_rejections" base.retryRejections
  return { workers := UInt64.ofNat workers, maxRetries := UInt32.ofNat maxRetries
           retryBaseMs := UInt64.ofNat retryBaseMs, retryMaxMs := UInt64.ofNat retryMaxMs
           retryRejections := retryRejections }

end Layer

/-! ## Surroundings -/

structure Surroundings where
  files : Table String String
  environment : List (String × String)
  /-- The folder that names of files lead on from. -/
  folder : String := ""

/-- A file with its name, the format that this name stands for, and its text. -/
structure FoundFile where
  name : String
  format : Option FileFormat
  text : String
  deriving DecidableEq

namespace Surroundings

def file? (s : Surroundings) (name : String) : Option FoundFile :=
  (s.files.get? name).map fun text => ⟨name, FileName.format? name, text⟩

/-- The files that a name stands for: that very file, or else those with a registered end, of which
any may be taken. Here it is the first; the order of the ends is the model's own. -/
def found (s : Surroundings) (name : String) : List FoundFile :=
  match (FileName.plain? name).bind s.file? with
  | some file => [file]
  | none => (FileName.extended name).filterMap s.file?

/-- What the names of the variables begin with, in lower case. -/
def variablePrefix : String := "deal_processor_"

/-- The settings in the environment, under their names in lower case. -/
def settingVariables (s : Surroundings) : List (String × Toml) :=
  s.environment.filterMap fun (name, text) =>
    (variablePrefix.toList.isPrefixOf? (Text.lowerCase name).toList).map fun key =>
      (String.ofList key, .text text)

end Surroundings

namespace Settings

def environmentName : String := "the environment"

/-- The layer with the file on top. Files of other formats than TOML are found but not read. -/
def overFile (s : Surroundings) (name : String) (l : Layer) : Except SettingsError Layer :=
  match s.found name with
  | [] => .error (.missingFile (.absent name))
  | file :: _ =>
    match file.format with
    | none => .error (.missingFile (.unregistered (FileName.rooted s.folder name)))
    | some .toml =>
      match Toml.ofText? file.text with
      | none => .error .malformedFile
      | some entries => .ok (l.withEntries (FileName.seenFrom s.folder file.name) entries)
    | some _ => .error (.missingFile (.otherFormat file.name))

def load (base : Settings) (s : Surroundings) (file : Option String) :
    Except SettingsError Settings := do
  let given ← Layer.ofSettings base
  let filed ← match file with
    | none => .ok given
    | some name => overFile s name given
  let settings ← (filed.withEntries environmentName s.settingVariables).toSettings
  settings.check
  return settings

end Settings

end DealDesk
