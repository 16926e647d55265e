import DealDesk.Decimal.Text

/-!
# Orders

* `OrderId`, `ClientId` — names of an order and of the client that places it.
* `OrderId.generate` — a fresh name inside the client's own: `client-` and thirty-two hexadecimal
  digits that carry 122 random bits.
* `Order` — an instruction to open a position; `Order.describe` is its one-line text.
-/

namespace DealDesk

/-! ## Names -/

structure OrderId where
  text : String
  deriving DecidableEq, Repr

structure ClientId where
  text : String
  deriving DecidableEq, Repr

def ClientId.isEmpty (c : ClientId) : Bool := c.text.isEmpty

/-- Hexadecimal digits of the low `width` half-bytes, the most significant first. -/
def hexDigits : Nat → Nat → List Char
  | 0, _ => []
  | width + 1, n => hexDigits width (n / 16) ++ [Nat.digitChar (n % 16)]

/-- A random token in its written form: 128 bits, of which the half-byte for the version is `4` and
the two bits for the variant are `10`. -/
def tokenDigits (high low : UInt64) : List Char :=
  let high := (high &&& 0xFFFFFFFFFFFF0FFF) ||| 0x4000
  let low := (low &&& 0x3FFFFFFFFFFFFFFF) ||| 0x8000000000000000
  hexDigits 16 high.toNat ++ hexDigits 16 low.toNat

def OrderId.generate (client : ClientId) (high low : UInt64) : OrderId :=
  ⟨client.text ++ "-" ++ String.ofList (tokenDigits high low)⟩

/-! ## Orders -/

inductive Side
  | buy
  | sell
  deriving DecidableEq, Repr

def Side.label : Side → String
  | .buy => "BUY"
  | .sell => "SELL"

structure Order where
  id : OrderId
  client : ClientId
  side : Side
  symbol : String
  volume : Float
  stopLoss : Option Float
  takeProfit : Option Float
  /-- Milliseconds since 1970. -/
  submittedAt : Int64
  deriving Repr

/-- `[r-1] Client-1 BUY EURUSD 0.1 lots SL=1.08 TP=1.09` -/
def Order.describe (o : Order) : String :=
  let head := "[" ++ o.id.text ++ "] " ++ o.client.text ++ " " ++ o.side.label ++ " " ++ o.symbol
    ++ " " ++ Decimal.plain o.volume ++ " lots"
  let stopLoss := match o.stopLoss with
    | some x => " SL=" ++ Decimal.plain x
    | none => ""
  let takeProfit := match o.takeProfit with
    | some x => " TP=" ++ Decimal.plain x
    | none => ""
  head ++ stopLoss ++ takeProfit

end DealDesk
