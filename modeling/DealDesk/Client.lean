import DealDesk.Desk.State
import DealDesk.Random.Source

/-!
# Simulated clients

* `ClientPlan` — who a client is, how many orders it places, how long it pauses between them, and
  whether some of them are bad on purpose.
* `Client ρ τ` — a client with its source of choices and its source of order names.
* `Client.nextOrder` — the next order: a good one, or one of four bad ones.
* `Client.orders` — all orders of one round, each with the pause after it.
-/

namespace DealDesk

open DealDesk.Random

structure ClientPlan where
  name : String
  requests : Nat
  minDelayMs : UInt64
  maxDelayMs : UInt64
  sendBad : Bool
  deriving Repr

structure Client (ρ τ : Type) where
  plan : ClientPlan
  choices : ρ
  names : τ

namespace Client

/-! ## Constants -/

def symbols : List String := ["EURUSD", "GBPUSD", "USDJPY", "AUDUSD", "USDCAD", "XAUUSD"]

/-- The share of bad orders, if a client sends any. -/
def badRate : Float := 0.10

/-- The share of good orders with protection levels. -/
def protectedRate : Float := 0.40

/-- Distance of a protection level from the reference price, as a share of it. -/
def protectionOffset : Float := 0.005

def referencePrice (symbol : String) : Float :=
  if symbol = "XAUUSD" then 2035 else if symbol = "USDJPY" then 149 else 1

variable {ρ τ : Type}

def id (c : Client ρ τ) : ClientId := ⟨c.plan.name⟩

/-- The longer pause is at least the shorter one. -/
def ofPlan (plan : ClientPlan) (choices : ρ) (names : τ) : Client ρ τ :=
  { plan := { plan with maxDelayMs := max plan.maxDelayMs plan.minDelayMs }
    choices := choices, names := names }

/-! ## Orders -/

variable [Source ρ] [Source τ]

/-- An order under a fresh name. -/
def place (c : Client ρ τ) (now : Int64) (side : Side) (symbol : String) (volume : Float)
    (levels : Option Float × Option Float) : Order × Client ρ τ :=
  let (high, names) := wide c.names
  let (low, names) := wide names
  ({ id := OrderId.generate c.id high low, client := c.id, side := side, symbol := symbol
     volume := volume, stopLoss := levels.1, takeProfit := levels.2, submittedAt := now },
    { c with names := names })

/-- Stop loss and take profit around the reference price. -/
def levelsFor (side : Side) (symbol : String) : Option Float × Option Float :=
  let price := referencePrice symbol
  let offset := price * protectionOffset
  match side with
  | .buy => (some (price - offset), some (price + offset))
  | .sell => (some (price + offset), some (price - offset))

/-- One of six symbols, either side, 0.01 to 0.50 lots, with or without protection levels. -/
def goodOrder (c : Client ρ τ) (now : Int64) : Order × Client ρ τ :=
  let (n, choices) := between .broad 0 (symbols.length - 1) c.choices
  let symbol := symbols.getD n ""
  let (heads, choices) := coin choices
  let side : Side := if heads then .buy else .sell
  let (lots, choices) := between .narrow 1 50 choices
  let (x, choices) := uniform choices
  let levels := if protectedRate <= x then (none, none) else levelsFor side symbol
  place { c with choices := choices } now side symbol (Float.ofNat lots * 0.01) levels

/-- An order that has to be turned down. -/
def badOrder (c : Client ρ τ) (now : Int64) : Order × Client ρ τ :=
  let (n, choices) := between .narrow 0 3 c.choices
  let c := { c with choices := choices }
  match n with
  | 0 => c.place now .buy "INVALID" 0.1 (none, none)
  | 1 => c.place now .sell "EURUSD" 0 (none, none)
  | 2 => c.place now .buy "EURUSD" 999 (none, none)
  | _ => c.place now .sell "GBPUSD" 0.1 (some (-1), none)

def nextOrder (c : Client ρ τ) (now : Int64) : Order × Client ρ τ :=
  if c.plan.sendBad then
    let (x, choices) := uniform c.choices
    let c := { c with choices := choices }
    if x < badRate then c.badOrder now else c.goodOrder now
  else c.goodOrder now

/-- The pause after an order, in milliseconds. -/
def nextPause (c : Client ρ τ) : Nat × Client ρ τ :=
  let (ms, choices) := between .broad c.plan.minDelayMs.toNat c.plan.maxDelayMs.toNat c.choices
  (ms, { c with choices := choices })

/-- So many orders, each with the pause after it. -/
def ordersFor (now : Int64) : Nat → Client ρ τ → List (Order × Nat) × Client ρ τ
  | 0, c => ([], c)
  | n + 1, c =>
    let (order, c) := c.nextOrder now
    let (pause, c) := c.nextPause
    let (rest, c) := ordersFor now n c
    ((order, pause) :: rest, c)

/-- The orders of one round. -/
def orders (c : Client ρ τ) (now : Int64) : List (Order × Nat) × Client ρ τ :=
  ordersFor now c.plan.requests c

end Client

/-- Submits the orders one after the other; each settlement goes to the mailbox. -/
def submissions (box : Nat) (orders : List Order) : List Call :=
  orders.map fun o => .submit o (some [.deliver box])

end DealDesk
