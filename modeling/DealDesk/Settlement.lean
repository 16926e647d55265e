import DealDesk.Outcome

/-!
# Settlements

* `Settlement` — the final result of an order.
* `Settlement.filled`, `Settlement.refused`, `Settlement.failed` — a ticket and a price on success,
  an error text otherwise.
* `Settlement.describe` — its one-line text.
-/

namespace DealDesk

structure Settlement where
  orderId : OrderId
  client : ClientId
  status : Status
  ticket : Option String
  price : Option Float
  error : Option String
  /-- Execution calls after the first one. -/
  retries : UInt32
  /-- The place in the order of submission. -/
  sequence : UInt64
  completedAt : Int64
  deriving DecidableEq, Repr

namespace Settlement

def filled (now : Int64) (o : Order) (f : Fill) : Settlement :=
  { orderId := o.id, client := o.client, status := .success
    ticket := some f.ticket, price := some f.price, error := none
    retries := 0, sequence := 0, completedAt := now }

def refused (now : Int64) (o : Order) (status : Status) (error : String) : Settlement :=
  { orderId := o.id, client := o.client, status := status
    ticket := none, price := none, error := some error
    retries := 0, sequence := 0, completedAt := now }

def failed (now : Int64) (o : Order) (f : Failure) : Settlement :=
  refused now o f.kind.status f.reason

def withRetries (s : Settlement) (retries : UInt32) : Settlement := { s with retries := retries }

def withSequence (s : Settlement) (sequence : UInt64) : Settlement :=
  { s with sequence := sequence }

def isSuccess (s : Settlement) : Bool := s.status.isSuccess

/-- `[r-1] SUCCESS Ticket=#100000 Price=1.08465 (retries=2)` -/
def describe (s : Settlement) : String :=
  let head := "[" ++ s.orderId.text ++ "] " ++ s.status.label
  let body := match s.ticket, s.price, s.error with
    | some ticket, some price, _ => " Ticket=#" ++ ticket ++ " Price=" ++ Decimal.fixed 5 price
    | _, _, some error => " Error: " ++ error
    | _, _, none => ""
  let tail := if 0 < s.retries then " (retries=" ++ toString s.retries.toNat ++ ")" else ""
  head ++ body ++ tail

end Settlement

end DealDesk
