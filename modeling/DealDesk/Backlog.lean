/-!
# The backlog

* `Backlog α` — a queue of accepted items that can be closed. Closing refuses new items and keeps
  the accepted ones.
* `Backlog.enqueue` — an item refused is handed back.
* `Backlog.dequeue` — the first item; none is left only once the backlog is closed; while it is open
  and empty the caller has to wait.
* `Backlog.Operation`, `Backlog.apply`, `Backlog.run` — a history of operations, with what it
  accepted and handed out.
-/

namespace DealDesk

structure Backlog (α : Type) where
  items : List α
  closed : Bool
  deriving DecidableEq, Repr

namespace Backlog

variable {α : Type}

def empty : Backlog α := { items := [], closed := false }

def enqueue (q : Backlog α) (a : α) : Except α (Backlog α) :=
  if q.closed then .error a else .ok { q with items := q.items ++ [a] }

inductive Taken (α : Type)
  | item (a : α)
  | drained
  | wait
  deriving DecidableEq, Repr

def dequeue (q : Backlog α) : Taken α × Backlog α :=
  match q.items with
  | a :: rest => (.item a, { q with items := rest })
  | [] => (if q.closed then .drained else .wait, q)

/-- The first item, without waiting for one. -/
def tryDequeue (q : Backlog α) : Option α × Backlog α :=
  match q.items with
  | a :: rest => (some a, { q with items := rest })
  | [] => (none, q)

def close (q : Backlog α) : Backlog α := { q with closed := true }

def depth (q : Backlog α) : Nat := q.items.length

def isEmpty (q : Backlog α) : Bool := q.items.isEmpty

/-! ## Histories -/

inductive Operation (α : Type)
  | enqueue (a : α)
  | dequeue
  | tryDequeue
  | close
  deriving DecidableEq, Repr

inductive Answer (α : Type)
  | accepted
  | refused (a : α)
  | taken (t : Taken α)
  | tried (a : Option α)
  | closed
  deriving DecidableEq, Repr

def apply (q : Backlog α) : Operation α → Answer α × Backlog α
  | .enqueue a =>
    match q.enqueue a with
    | .ok q => (.accepted, q)
    | .error a => (.refused a, q)
  | .dequeue => let (t, q) := q.dequeue; (.taken t, q)
  | .tryDequeue => let (a, q) := q.tryDequeue; (.tried a, q)
  | .close => (.closed, q.close)

/-- The answers to a history, and the backlog after it. -/
def run (q : Backlog α) : List (Operation α) → List (Answer α) × Backlog α
  | [] => ([], q)
  | op :: rest =>
    let (answer, q) := q.apply op
    let (answers, q) := run q rest
    (answer :: answers, q)

end Backlog

end DealDesk
