import DealDesk.Order

/-!
# Outcomes of an execution

* `Status` — how an order ends; `Status.all` lists them in their fixed order.
* `Fill`, `Failure`, `Outcome` — what a broker answers to one execution call.
* `FailureKind.status` — the status of an order whose last failure is of that kind, which is
  neither success nor duplicate.
-/

namespace DealDesk

/-! ## Statuses -/

inductive Status
  | success
  | rejected
  | invalidParams
  | connectionError
  | marginError
  | duplicate
  | retryExhausted
  deriving DecidableEq, Repr

namespace Status

def all : List Status :=
  [.success, .rejected, .invalidParams, .connectionError, .marginError, .duplicate,
    .retryExhausted]

/-- The place in `all`. -/
def rank : Status → Nat
  | .success => 0
  | .rejected => 1
  | .invalidParams => 2
  | .connectionError => 3
  | .marginError => 4
  | .duplicate => 5
  | .retryExhausted => 6

def label : Status → String
  | .success => "SUCCESS"
  | .rejected => "REJECTED"
  | .invalidParams => "INVALID_PARAMS"
  | .connectionError => "CONNECTION_ERROR"
  | .marginError => "MARGIN_ERROR"
  | .duplicate => "DUPLICATE"
  | .retryExhausted => "RETRY_EXHAUSTED"

def isSuccess (s : Status) : Bool := s == .success

end Status

/-! ## Fills and failures -/

/-- A deal as the broker booked it. -/
structure Fill where
  ticket : String
  orderId : OrderId
  symbol : String
  side : Side
  volume : Float
  price : Float
  executedAt : Int64
  deriving Repr

inductive FailureKind
  | connection
  | rejected
  | invalidParams
  | margin
  deriving DecidableEq, Repr

def FailureKind.status : FailureKind → Status
  | .connection => .connectionError
  | .rejected => .rejected
  | .invalidParams => .invalidParams
  | .margin => .marginError

theorem FailureKind.status_ne_success (k : FailureKind) : k.status ≠ .success := by
  cases k <;> simp [status]

theorem FailureKind.status_ne_duplicate (k : FailureKind) : k.status ≠ .duplicate := by
  cases k <;> simp [status]

/-- May the same order succeed when it is tried again? -/
inductive Disposition
  | transient
  | permanent
  deriving DecidableEq, Repr

def Disposition.label : Disposition → String
  | .transient => "Transient"
  | .permanent => "Permanent"

structure Failure where
  kind : FailureKind
  disposition : Disposition
  reason : String
  deriving DecidableEq, Repr

namespace Failure

def isTransient (f : Failure) : Bool := f.disposition == .transient

/-- `MARGIN_ERROR (Permanent): Insufficient margin` -/
def describe (f : Failure) : String :=
  f.kind.status.label ++ " (" ++ f.disposition.label ++ "): " ++ f.reason

end Failure

inductive Outcome
  | filled (fill : Fill)
  | failed (failure : Failure)
  deriving Repr

end DealDesk
