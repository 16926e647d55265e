import DealDesk.Text.Pieces

/-!
# Names of settings files

* `FileFormat` — the registered formats, each with the ends of names that stand for it.
* `FileName.format?` — the format of a file, by the end of its name.
* `FileName.plain?`, `FileName.extended` — the files that a name may stand for: that very file, and
  those with a registered end after the name.
* `FileName.seenFrom` — the way to a file from a folder.

Of the formats only TOML is read here; see `Settings.overFile`.
-/

namespace DealDesk

inductive FileFormat
  | toml | json | yaml | ini | ron | json5
  deriving DecidableEq, Repr

namespace FileFormat

def all : List FileFormat := [.toml, .json, .yaml, .ini, .ron, .json5]

/-- What the name of a file in this format ends with, after a point. -/
def ends : FileFormat → List String
  | .toml => ["toml"]
  | .json => ["json"]
  | .yaml => ["yaml", "yml"]
  | .ini => ["ini"]
  | .ron => ["ron"]
  | .json5 => ["json5"]

end FileFormat

namespace FileName

/-- A part of a name between slashes that leads nowhere else. -/
def staysInPlace (part : String) : Bool := part = "" || part = "."

/-- The parts of a name that lead somewhere. -/
def steps (name : String) : List String := (Text.pieces '/' name).filter fun part => !staysInPlace part

/-- What stands after the last point of the last part; a point at its front does not count. -/
def ending? (name : String) : Option String :=
  (steps name).getLast?.bind fun last =>
    match Text.pieces '.' last with
    | [_] | ["", _] => none
    | parts => parts.getLast?

/-- A registered format, by the end of the name. Capitals count. -/
def format? (name : String) : Option FileFormat :=
  (ending? name).bind fun ending => FileFormat.all.find? fun format => ending ∈ format.ends

/-- The name without parts that stay in place. One that ends by going up stands for no file. -/
def trimmed? (name : String) : Option String :=
  match (steps name).getLast? with
  | none | some ".." => none
  | some _ =>
    let root := if (Text.pieces '/' name).head? = some "" then "/" else ""
    some (root ++ String.intercalate "/" (steps name))

/-- The file of that very name. A name whose last part stays in place is that of a folder. -/
def plain? (name : String) : Option String :=
  if (Text.pieces '/' name).getLast?.any staysInPlace then none else trimmed? name

/-- The files with a registered end after the name. -/
def extended (name : String) : List String :=
  match trimmed? name with
  | none => []
  | some stem => (FileFormat.all.flatMap FileFormat.ends).map fun ending => stem ++ "." ++ ending

/-- All files that the name may stand for. -/
def candidates (name : String) : List String := (plain? name).toList ++ extended name

def isRooted (name : String) : Bool := name.toList.head? = some '/'

/-- The steps to a file from a folder, both of them reached from the root. -/
def stepsFrom : (folder file : List String) → List String
  | f :: folder, s :: file =>
    if f = s then stepsFrom folder file
    else List.replicate (folder.length + 1) ".." ++ s :: file
  | folder, file => List.replicate folder.length ".." ++ file

/-- A name as seen from a folder; a name that does not begin at the root is one already. -/
def seenFrom (folder name : String) : String :=
  if isRooted folder && isRooted name then
    String.intercalate "/" (stepsFrom (steps folder) (steps name))
  else name

/-- A name that begins at the root, if the folder does. -/
def rooted (folder name : String) : String :=
  if isRooted name || folder = "" then name
  else if folder.toList.getLast? = some '/' then folder ++ name
  else folder ++ "/" ++ name

end FileName

end DealDesk
