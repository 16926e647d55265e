import DealDesk.Settlement
import DealDesk.Table

/-!
# Counts by status

* `Stats` — how many settlements there are in all and of each status that occurs.
* `Stats.add` counts one more; `Stats.ofStatuses` counts a list.
* `successful`, `rejected`, `errors`, `duplicates` — the four groups of statuses.
-/

namespace DealDesk

structure Stats where
  total : Nat
  /-- The statuses that occur, in their fixed order. -/
  byStatus : List (Status × Nat)
  deriving DecidableEq, Repr

namespace Stats

def empty : Stats := { total := 0, byStatus := [] }

/-- One more of a status; the list stays in the fixed order. -/
def bump (s : Status) : List (Status × Nat) → List (Status × Nat)
  | [] => [(s, 1)]
  | (t, n) :: rest =>
    if t = s then (t, n + 1) :: rest
    else if s.rank < t.rank then (s, 1) :: (t, n) :: rest
    else (t, n) :: bump s rest

def add (st : Stats) (s : Status) : Stats :=
  { total := st.total + 1, byStatus := bump s st.byStatus }

def ofStatuses (l : List Status) : Stats := l.foldl add empty

def count (st : Stats) (s : Status) : Nat := (Table.get? st.byStatus s).getD 0

def successful (st : Stats) : Nat := st.count .success

/-- What the broker or the retry rule turned down. -/
def rejected (st : Stats) : Nat :=
  st.count .rejected + st.count .marginError + st.count .retryExhausted

/-- What failed for bad parameters or a lost connection. -/
def errors (st : Stats) : Nat := st.count .connectionError + st.count .invalidParams

def duplicates (st : Stats) : Nat := st.count .duplicate

/-- The share of successful orders, in percent. -/
def successRate (st : Stats) : Float :=
  if st.total = 0 then 0
  else 100 * Float.ofNat st.successful / Float.ofNat st.total

end Stats

end DealDesk
