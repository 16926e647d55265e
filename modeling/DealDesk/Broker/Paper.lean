import DealDesk.Broker
import DealDesk.Broker.Margin
import DealDesk.Decimal.Text
import DealDesk.Random.Source
import DealDesk.Table

/-!
# The paper broker

* `Paper ρ` — a trade server that exists on paper only: a book of symbols, a margin account, the
  deals booked so far, and a source of random numbers for quotes, delays, lost calls and slippage.
* `Paper.check` — what the server asks of an order.
* `Paper.execute` — delay, lost call, checks, margin, ticket, price, in this order. A call that
  fails changes nothing but the random source.
-/

namespace DealDesk

open DealDesk.Random

structure Paper (ρ : Type) where
  symbols : Table String Instrument
  failureRate : Float
  /-- Bounds of the delay of a call, in milliseconds. -/
  latency : UInt64 × UInt64
  source : ρ
  login : UInt64
  currency : String
  margin : MarginBook Float
  fills : Table String Fill
  nextTicket : UInt64
  connected : Bool

namespace Paper

/-! ## Terms -/

/-- The account every paper broker opens with. -/
def demoLogin : UInt64 := 12345

def openingBalance : Float := 100000

def firstTicket : UInt64 := 100000

def terms : MarginTerms Float := { perLot := 1000, impact := 0.001, hundred := 100 }

/-- Full width of the band in which a quote moves. -/
def quoteJitter : Float := 0.0010

/-- Full width of the band in which a price slips. -/
def slippage : Float := 0.00005

def listed (symbol : String) (bid ask maxVolume : Float) (digits : UInt32) : Instrument :=
  { symbol := symbol, bid := bid, ask := ask, minVolume := 0.01, maxVolume := maxVolume
    volumeStep := 0.01, digits := digits, tradeable := true }

def standardBook : List Instrument :=
  [listed "EURUSD" 1.08450 1.08465 100 5, listed "GBPUSD" 1.26320 1.26340 100 5,
    listed "USDJPY" 149.850 149.865 100 3, listed "AUDUSD" 0.65230 0.65248 100 5,
    listed "USDCAD" 1.35720 1.35738 100 5, listed "XAUUSD" 2035.50 2036.00 50 2]

/-! ## Setting up -/

variable {ρ : Type}

/-- One call in twenty is lost, and a call takes from 10 to 100 milliseconds. -/
def standard (source : ρ) : Paper ρ :=
  { symbols := standardBook.map fun i => (i.symbol, i)
    failureRate := 0.05, latency := (10, 100), source := source
    login := demoLogin, currency := "USD", margin := MarginBook.opening 0 openingBalance
    fills := [], nextTicket := firstTicket, connected := false }

/-- The rate is brought into `[0, 1]`. -/
def withFailureRate (p : Paper ρ) (rate : Float) : Paper ρ :=
  { p with failureRate := if rate < 0 then 0 else if 1 < rate then 1 else rate }

/-- The bounds may be given in either order. -/
def withLatency (p : Paper ρ) (a b : UInt64) : Paper ρ :=
  { p with latency := if a ≤ b then (a, b) else (b, a) }

def withSymbol (p : Paper ρ) (i : Instrument) : Paper ρ :=
  { p with symbols := p.symbols.put i.symbol i }

def account (p : Paper ρ) : Account :=
  { login := p.login, balance := p.margin.balance, equity := p.margin.equity
    freeMargin := p.margin.free, marginLevel := p.margin.level, currency := p.currency }

/-! ## What the server asks of an order -/

/-- A refusal for good. -/
def refusal (kind : FailureKind) (reason : String) : Failure :=
  { kind := kind, disposition := .permanent, reason := reason }

/-- Known symbol, permission to trade, lot limits, lot step: the first that fails is reported. -/
def check (p : Paper ρ) (o : Order) : Except Failure Instrument :=
  match p.symbols.get? o.symbol with
  | none => .error (refusal .invalidParams ("Symbol '" ++ o.symbol ++ "' not found"))
  | some i =>
    if !i.tradeable then
      .error (refusal .rejected ("Trading disabled for symbol '" ++ o.symbol ++ "'"))
    else if !i.allows o.volume then
      .error (refusal .invalidParams ("Volume " ++ Decimal.plain o.volume
        ++ " outside allowed range [" ++ Decimal.plain i.minVolume ++ ", "
        ++ Decimal.plain i.maxVolume ++ "]"))
    else if !i.aligned o.volume then
      .error (refusal .invalidParams ("Volume " ++ Decimal.plain o.volume
        ++ " not aligned to step " ++ Decimal.plain i.volumeStep))
    else .ok i

/-! ## Booking -/

def marginRefusal (required available : Float) : Failure :=
  refusal .margin ("Insufficient margin. Required: $" ++ Decimal.fixed 2 required
    ++ ", Available: $" ++ Decimal.fixed 2 available)

def reserve (p : Paper ρ) (volume : Float) : Except Failure (Paper ρ) :=
  match p.margin.reserve terms volume with
  | some margin => .ok { p with margin := margin }
  | none => .error (marginRefusal (MarginBook.required terms volume) p.margin.free)

def drawTicket (p : Paper ρ) : String × Paper ρ :=
  (toString p.nextTicket.toNat, { p with nextTicket := p.nextTicket + 1 })

def book (p : Paper ρ) (f : Fill) : Paper ρ := { p with fills := p.fills.put f.ticket f }

/-! ## Calls -/

variable [Source ρ]

def sample (p : Paper ρ) : Float × Paper ρ :=
  let (x, source) := uniform p.source
  (x, { p with source := source })

/-- A delay is drawn unless no call takes any time. -/
def delay (p : Paper ρ) : Nat × Paper ρ :=
  let (low, high) := p.latency
  if high = 0 then (0, p)
  else
    let (ms, source) := between .broad low.toNat high.toNat p.source
    (ms, { p with source := source })

/-- Is this call lost on the way? -/
def loses (p : Paper ρ) : Bool × Paper ρ :=
  if 0 < p.failureRate then
    let (x, q) := p.sample
    (x < p.failureRate, q)
  else (false, p)

/-- Buyers pay the ask and sellers get the bid, give or take the slippage. -/
def fillPrice (p : Paper ρ) (i : Instrument) (side : Side) : Float × Paper ρ :=
  let (x, p) := p.sample
  let base := match side with
    | .buy => i.ask
    | .sell => i.bid
  (base + (x - 0.5) * slippage, p)

def lostCall : Failure :=
  { kind := .connection, disposition := .transient, reason := "Trade server connection timeout" }

def quote (p : Paper ρ) (symbol : String) : Option Instrument × Paper ρ :=
  match p.symbols.get? symbol with
  | none => (none, p)
  | some i =>
    let (x, p) := p.sample
    (some (i.shifted ((x - 0.5) * quoteJitter)), p)

/-- The deal of an order that passed the checks and whose margin is set aside. -/
def deal (p : Paper ρ) (now : Int64) (o : Order) (i : Instrument) : Fill × Paper ρ :=
  let (ticket, p) := p.drawTicket
  let (price, p) := p.fillPrice i o.side
  ({ ticket := ticket, orderId := o.id, symbol := i.symbol, side := o.side, volume := o.volume
     price := price, executedAt := now }, p)

def execute (p : Paper ρ) (now : Int64) (o : Order) : Called (Paper ρ) Outcome :=
  let (ms, p) := p.delay
  let (lost, p) := p.loses
  if lost then ⟨.failed lostCall, p, ms⟩
  else match p.check o with
    | .error failure => ⟨.failed failure, p, ms⟩
    | .ok i =>
      match p.reserve o.volume with
      | .error failure => ⟨.failed failure, p, ms⟩
      | .ok p =>
        let (fill, p) := p.deal now o i
        ⟨.filled fill, p.book fill, ms⟩

def connect (p : Paper ρ) (server : String) (login : UInt64) :
    Called (Paper ρ) (Except SessionError Unit) :=
  if server.isEmpty then ⟨.error (.refused server "empty server address"), p, 0⟩
  else
    let (ms, p) := p.delay
    ⟨.ok (), { p with login := login, connected := true }, ms⟩

def disconnect (p : Paper ρ) : Paper ρ := { p with connected := false }

/-- Names in order. -/
def symbolNames (p : Paper ρ) : List String := p.symbols.keys.mergeSort (· ≤ ·)

def bookedNote : Outcome → List String
  | .filled fill => ["Booked ticket #" ++ fill.ticket ++ " for " ++ fill.orderId.text]
  | .failed _ => []

def broker : Broker (Paper ρ) where
  quote p symbol := let (i, p) := p.quote symbol; (.answer i, p)
  account p login := if p.login = login then some p.account else none
  execute p now o := let c := p.execute now o; ⟨.answer c.reply, c.state, c.delay⟩
  deal p ticket := (p.fills.get? ticket).map .filled
  notes := bookedNote
  connect p server login _ := p.connect server login
  disconnect := disconnect
  isConnected p := p.connected
  symbols := symbolNames

end Paper

end DealDesk
