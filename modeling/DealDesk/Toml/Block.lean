import DealDesk.Toml.Value

/-!
# TOML tables under headers

* `Block` — the entries under one header. The path of its header leads there from the table at hand.
* `Block.plainTable` — the entries of a table that is no moment: those of its own block and those that
  the blocks inside it make. It has one block of its own at most, and no name twice.
* `Block.elementsOf` — an array of tables. What stands inside an element that is a moment goes into the
  next element, and one has to come.
* `Block.document` — the entries of a whole document.
-/

namespace DealDesk.Toml

structure Block where
  path : List String
  /-- Does the header open an element of an array? -/
  element : Bool
  entries : List (String × Draft)

namespace Block

/-! ## Blocks of a table -/

/-- The text of a table that is a moment, and the blocks inside it. -/
def takeMoment? : List Block → Option (Draft × List Block)
  | ⟨[], _, (key, v) :: _⟩ :: inner => if key = Draft.momentKey then some (v, inner) else none
  | _ => none

/-- The name that comes first in a table, if it comes from a header. -/
def firstHeader? : List Block → Option String
  | [] => none
  | ⟨key :: _, _, _⟩ :: _ => some key
  | ⟨[], _, []⟩ :: rest => firstHeader? rest
  | ⟨[], _, _ :: _⟩ :: _ => none

/-- The entries of the block that is the table's own. -/
def ownEntries? (blocks : List Block) : Option (List (String × Draft)) :=
  match blocks.filter fun b => b.path.isEmpty with
  | [] => some []
  | [⟨_, false, entries⟩] => some entries
  | _ => none

/-- The names of the tables inside, as they come. -/
def innerKeys (blocks : List Block) : List String :=
  (blocks.filterMap fun b => b.path.head?).eraseDups

/-- The blocks of an inner table. -/
def within (key : String) (blocks : List Block) : List Block :=
  blocks.filterMap fun b =>
    match b.path with
    | [] => none
    | first :: path => if first = key then some { b with path := path } else none

/-- The entries of a table, given how an inner value is made of its blocks. -/
def plainTable (value : List Block → Option Toml) (blocks : List Block) :
    Option (List (String × Toml)) :=
  if firstHeader? blocks = some Draft.momentKey then none
  else do
    let own ← ownEntries? blocks
    let entries ← Draft.finishEntries own
    let inner ← (innerKeys blocks).mapM fun key =>
      (value (within key blocks)).map fun v => (key, v)
    Draft.distinct? (entries ++ inner)

/-! ## Arrays of tables -/

def opensElement (b : Block) : Bool := b.path.isEmpty && b.element

/-- The elements, each as the block of its header and those inside it. -/
def segments : List Block → List (Block × List Block)
  | [] => []
  | b :: rest =>
    match segments rest with
    | [] => [(b, [])]
    | (next, inner) :: more =>
      if next.opensElement then (b, []) :: (next, inner) :: more
      else (b, next :: inner) :: more

/-- The elements, given how a table is made of its blocks and what the elements before left over. -/
def elementsOf (table : List Block → Option Toml) :
    List Block → List (Block × List Block) → Option (List Toml)
  | [], [] => some []
  | _ :: _, [] => none
  | left, (own, inner) :: rest =>
    match takeMoment? (own :: inner) with
    | some (v, inner) => do
      let item ← v.moment?
      let items ← elementsOf table (left ++ inner) rest
      some (item :: items)
    | none => do
      let item ← table ({ own with element := false } :: left ++ inner)
      let items ← elementsOf table [] rest
      some (item :: items)

/-- The value under a name: an array if the first header says so. -/
def valueOf (table : List Block → Option Toml) (blocks : List Block) : Option Toml :=
  match blocks with
  | ⟨[], true, _⟩ :: _ => (elementsOf table [] (segments blocks)).map .list
  | _ => table blocks

/-! ## Whole tables -/

/-- A table whose headers go at most so deep. One that is a moment has nothing inside it. -/
def tableOf : Nat → List Block → Option Toml
  | 0, _ => none
  | depth + 1, blocks =>
    match takeMoment? blocks with
    | some (v, []) => v.moment?
    | some (_, _ :: _) => none
    | none => (plainTable (valueOf (tableOf depth)) blocks).map .table

def depth (blocks : List Block) : Nat :=
  blocks.foldl (fun n b => max n b.path.length) 0

/-- A document that is a moment has no entries, whatever it holds besides. -/
def document (blocks : List Block) : Option (List (String × Toml)) :=
  match takeMoment? blocks with
  | some (v, _) => v.moment?.map fun _ => []
  | none => plainTable (valueOf (tableOf (depth blocks))) blocks

end Block

end DealDesk.Toml
