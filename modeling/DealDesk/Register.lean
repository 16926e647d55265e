import DealDesk.Register.Stats

/-!
# The register

* `Register` — the settlements recorded so far and the next sequence number. Settlements are kept
  under the name of their order, with an index from clients to order names; refusals of a name seen
  before are kept apart, under their client.
* `Register.record` — a second settlement of the same order replaces the first, and the name moves
  to the end of its client's index if the client changed.
* `Register.find?`, `ofClient`, `all`, `stats`, `clients`, `tickets` — the questions it answers.
-/

namespace DealDesk

structure Register where
  results : Table OrderId Settlement
  index : Table ClientId (List OrderId)
  duplicates : Table ClientId (List Settlement)
  nextSequence : UInt64

/-- The ticket of a successful order. -/
structure TicketRow where
  orderId : OrderId
  ticket : String
  price : Float
  deriving Repr

namespace Register

def empty : Register := { results := [], index := [], duplicates := [], nextSequence := 0 }

/-- Hands out the next sequence number; after the last 64-bit number comes zero. -/
def drawSequence (r : Register) : UInt64 × Register :=
  (r.nextSequence, { r with nextSequence := r.nextSequence + 1 })

/-! ## Recording -/

/-- Takes a name out of a client's index; a client without an index has nothing to lose. -/
def unlist (index : Table ClientId (List OrderId)) (c : ClientId) (id : OrderId) :
    Table ClientId (List OrderId) :=
  match index.get? c with
  | some ids => index.put c (ids.filter (· ≠ id))
  | none => index

/-- Puts a name at the end of a client's index. -/
def list (index : Table ClientId (List OrderId)) (c : ClientId) (id : OrderId) :
    Table ClientId (List OrderId) :=
  index.update c [] (· ++ [id])

def record (r : Register) (s : Settlement) : Register :=
  if s.status = .duplicate then
    { r with duplicates := r.duplicates.update s.client [] (· ++ [s]) }
  else
    let results := r.results.put s.orderId s
    match r.results.get? s.orderId with
    | none => { r with results := results, index := list r.index s.client s.orderId }
    | some previous =>
      if previous.client = s.client then { r with results := results }
      else
        let index := unlist r.index previous.client s.orderId
        { r with results := results, index := list index s.client s.orderId }

/-- The register after a history of records. -/
def ofHistory (history : List Settlement) : Register := history.foldl record empty

/-! ## Questions -/

def find? (r : Register) (id : OrderId) : Option Settlement := r.results.get? id

/-- A client's settlements, those kept under a name first. -/
def entriesOf (r : Register) (c : ClientId) : List Settlement :=
  ((r.index.get? c).getD []).filterMap r.find? ++ (r.duplicates.get? c).getD []

def entries (r : Register) : List Settlement :=
  r.results.values ++ r.duplicates.values.flatten

/-- A client's settlements in order of submission. -/
def ofClient (r : Register) (c : ClientId) : List Settlement :=
  (r.entriesOf c).mergeSort fun a b => a.sequence ≤ b.sequence

/-- Equal sequence numbers are told apart by order name, client and status. This order of them is the
model's own: they come from hash tables, which have none. -/
def before (a b : Settlement) : Bool :=
  if a.sequence ≠ b.sequence then a.sequence < b.sequence
  else if a.orderId ≠ b.orderId then a.orderId.text < b.orderId.text
  else if a.client ≠ b.client then a.client.text < b.client.text
  else a.status.rank ≤ b.status.rank

/-- Every settlement in order of submission. -/
def all (r : Register) : List Settlement := r.entries.mergeSort before

def stats (r : Register) : Stats := Stats.ofStatuses (r.entries.map (·.status))

def statsOf (r : Register) (c : ClientId) : Stats :=
  Stats.ofStatuses ((r.entriesOf c).map (·.status))

/-- Drops an element that equals the one before it. -/
def dedup : List ClientId → List ClientId
  | a :: b :: rest => if a = b then dedup (b :: rest) else a :: dedup (b :: rest)
  | l => l

/-- The clients that have an index or a refused duplicate, by name. -/
def clients (r : Register) : List ClientId :=
  dedup ((r.index.keys ++ r.duplicates.keys).mergeSort fun a b => a.text ≤ b.text)

def ticketRow (s : Settlement) : Option TicketRow :=
  match s.ticket, s.price with
  | some ticket, some price => some { orderId := s.orderId, ticket := ticket, price := price }
  | _, _ => none

/-- The tickets of all successful orders, by order name. -/
def tickets (r : Register) : List TicketRow :=
  (r.results.values.filterMap ticketRow).mergeSort fun a b => a.orderId.text ≤ b.orderId.text

def size (r : Register) : Nat :=
  r.results.length + r.duplicates.values.flatten.length

def isEmpty (r : Register) : Bool := r.size = 0

end Register

end DealDesk
