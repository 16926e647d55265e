import DealDesk.Table
import DealDesk.Toml.Moment

/-!
# TOML values

* `Toml` — a value of a TOML document. A date or a time of day is kept as text.
* `Draft` — a value as it is written: a name may stand in it twice, and what looks like a date need
  not be one.
* `Draft.addEntry` — the entry of a key line. A dotted key makes tables which only dotted keys beside
  it may extend.
* `Draft.finish?` — the value of a draft, if it has one.
-/

namespace DealDesk

inductive Toml
  | text (s : String)
  | whole (n : Int)
  | real (x : Float)
  | flag (b : Bool)
  | list (items : List Toml)
  | table (entries : List (String × Toml))

namespace Toml

inductive Draft
  | final (v : Toml)
  | moment (cs : List Char)
  | list (items : List Draft)
  /-- A table in braces. -/
  | table (entries : List (String × Draft))
  /-- A table that dotted keys made. -/
  | dotted (entries : List (String × Draft))

namespace Draft

def addEntry (v : Draft) : List String → List (String × Draft) → Option (List (String × Draft))
  | [], _ => none
  | [key], t => some (t ++ [(key, v)])
  | key :: path, t =>
    match Table.get? t key with
    | none => (addEntry v path []).map fun inner => Table.put t key (.dotted inner)
    | some (.dotted inner) =>
      (addEntry v path inner).map fun inner => Table.put t key (.dotted inner)
    | some _ => none

/-! ## Finished values -/

/-- A table whose first entry has this name stands for the moment that the entry's text writes. Its
other entries do not count. -/
def momentKey : String := "$__toml_private_datetime"

def momentText? (cs : List Char) : Option Toml := (Moment.ofText? cs).map fun m => .text m.text

/-- The moment that a text writes. -/
def moment? : Draft → Option Toml
  | .final (.text s) => momentText? s.toList
  | _ => none

/-- Entries of which no two have one name. -/
def distinct? (entries : List (String × Toml)) : Option (List (String × Toml)) :=
  if (Table.keys entries).Nodup then some entries else none

mutual

def finish? : Draft → Option Toml
  | .final v => some v
  | .moment cs => momentText? cs
  | .list items => (finishItems items).map .list
  | .table entries | .dotted entries => finishTable entries

def finishTable : List (String × Draft) → Option Toml
  | [] => some (.table [])
  | (key, d) :: rest =>
    if key = momentKey then d.moment?
    else do
      let v ← d.finish?
      let entries ← finishEntries rest
      (distinct? ((key, v) :: entries)).map .table

def finishEntries : List (String × Draft) → Option (List (String × Toml))
  | [] => some []
  | (key, d) :: rest => do
    let v ← d.finish?
    let entries ← finishEntries rest
    some ((key, v) :: entries)

def finishItems : List Draft → Option (List Toml)
  | [] => some []
  | d :: rest => do
    let v ← d.finish?
    let items ← finishItems rest
    some (v :: items)

end

end Draft

end Toml

end DealDesk
