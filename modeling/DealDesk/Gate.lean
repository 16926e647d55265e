import DealDesk.Broker
import DealDesk.Settlement

/-!
# The gate

* `Gate` — the order names seen so far.
* `Objection` — why an order is not let through, with its status and its text.
* `Order.flaw` — what is wrong with the order on its own; `Order.clash` — what is wrong with it for
  the symbol it names. Both report the first rule that fails.
* `Gate.examine` — all the rules in order: name seen before, the order alone, its symbol. A broker is
  asked for the symbol only if the order alone is sound.
-/

namespace DealDesk

/-! ## Objections -/

inductive Objection
  | duplicate
  | noClient
  | noSymbol
  | volume
  | unknownSymbol
  | notTradeable
  | outOfRange (low high : Float)
  | offStep (step : Float)
  | stopLoss (level : Float)
  | takeProfit (level : Float)

namespace Objection

def status : Objection → Status
  | .duplicate => .duplicate
  | .notTradeable => .rejected
  | _ => .invalidParams

def message (o : Order) : Objection → String
  | .duplicate => "Duplicate request ID: " ++ o.id.text
  | .noClient => "Empty client ID"
  | .noSymbol => "Empty symbol"
  | .volume => "Invalid volume: " ++ Decimal.plain o.volume
  | .unknownSymbol => "Unknown symbol: " ++ o.symbol
  | .notTradeable => "Trading not allowed for: " ++ o.symbol
  | .outOfRange low high =>
    "Volume " ++ Decimal.plain o.volume ++ " outside range [" ++ Decimal.plain low ++ ", "
      ++ Decimal.plain high ++ "]"
  | .offStep step =>
    "Volume " ++ Decimal.plain o.volume ++ " not aligned to step " ++ Decimal.plain step
  | .stopLoss level => "Invalid stop loss: " ++ Decimal.plain level
  | .takeProfit level => "Invalid take profit: " ++ Decimal.plain level

def settlement (now : Int64) (o : Order) (why : Objection) : Settlement :=
  Settlement.refused now o why.status (why.message o)

end Objection

/-! ## The rules -/

/-- What is wrong with the order on its own. A volume that is no number is not above zero. -/
def Order.flaw (o : Order) : Option Objection :=
  if o.client.isEmpty then some .noClient
  else if o.symbol.isEmpty then some .noSymbol
  else if !(0 < o.volume : Bool) then some .volume
  else none

/-- A protection level that is given must be above zero. -/
def badLevel : Option Float → Option Float
  | some level => if 0 < level then none else some level
  | none => none

/-- What is wrong with the order for its symbol, which the broker may not know. -/
def Order.clash (o : Order) : Option Instrument → Option Objection
  | none => some .unknownSymbol
  | some i =>
    if !i.tradeable then some .notTradeable
    else if !i.allows o.volume then some (.outOfRange i.minVolume i.maxVolume)
    else if !i.aligned o.volume then some (.offStep i.volumeStep)
    else match badLevel o.stopLoss, badLevel o.takeProfit with
      | some level, _ => some (.stopLoss level)
      | none, some level => some (.takeProfit level)
      | none, none => none

/-! ## The gate -/

structure Gate where
  seen : List OrderId
  deriving DecidableEq, Repr

namespace Gate

def empty : Gate := { seen := [] }

/-- Notes the name down; was it new? -/
def enter (g : Gate) (id : OrderId) : Bool × Gate :=
  if id ∈ g.seen then (false, g) else (true, { seen := id :: g.seen })

/-- The number of different names seen. -/
def count (g : Gate) : Nat := g.seen.length

/-- What is wrong with an order, if anything. -/
def examine {β : Type} (b : Broker β) (g : Gate) (s : β) (o : Order) :
    Reply (Option Objection) × Gate × β :=
  match g.enter o.id with
  | (false, g) => (.answer (some .duplicate), g, s)
  | (true, g) =>
    match o.flaw with
    | some why => (.answer (some why), g, s)
    | none =>
      match b.quote s o.symbol with
      | (.broke, s) => (.broke, g, s)
      | (.answer i, s) => (.answer (o.clash i), g, s)

end Gate

end DealDesk
