import DealDesk.Broker
import DealDesk.Table

/-!
# The scripted broker

* `Scripted` — a broker whose failures are written down beforehand. Each execution call takes the
  next failure of the script; when the script is used up the call fails with the fallback, or is
  filled at the ask price if there is none.
* It counts its calls. Tickets are `1`, `2`, `3`, …
-/

namespace DealDesk

structure Scripted where
  symbols : Table String Instrument
  script : List Failure
  fallback : Option Failure
  /-- How many milliseconds an execution call takes. -/
  latency : Nat
  lookups : Nat
  executions : Nat
  fills : Table String Fill
  nextTicket : UInt64

namespace Scripted

def empty : Scripted :=
  { symbols := [], script := [], fallback := none, latency := 0, lookups := 0, executions := 0
    fills := [], nextTicket := 1 }

def withSymbol (s : Scripted) (i : Instrument) : Scripted :=
  { s with symbols := s.symbols.put i.symbol i }

/-- The one symbol of the standard set-up. -/
def standardSymbol : Instrument :=
  { symbol := "EURUSD", bid := 1.08450, ask := 1.08465, minVolume := 0.01, maxVolume := 100
    volumeStep := 0.01, digits := 5, tradeable := true }

def withScript (s : Scripted) (failures : List Failure) : Scripted :=
  { s with script := s.script ++ failures }

def alwaysFailing (s : Scripted) (f : Failure) : Scripted := { s with fallback := some f }

/-- How many execution calls have one before them. -/
def gaps (s : Scripted) : Nat := s.executions - 1

/-! ## Calls -/

def quote (s : Scripted) (symbol : String) : Option Instrument × Scripted :=
  (s.symbols.get? symbol, { s with lookups := s.lookups + 1 })

/-- The failure of the next call, if it fails, and the script that is left. -/
def nextFailure (s : Scripted) : Option Failure × List Failure :=
  match s.script with
  | f :: rest => (some f, rest)
  | [] => (s.fallback, [])

def fillFor (s : Scripted) (now : Int64) (o : Order) : Fill :=
  { ticket := toString s.nextTicket.toNat
    orderId := o.id, symbol := o.symbol, side := o.side, volume := o.volume
    price := match s.symbols.get? o.symbol with
      | some i => i.ask
      | none => 1
    executedAt := now }

def execute (s : Scripted) (now : Int64) (o : Order) : Outcome × Scripted :=
  let (failure, script) := s.nextFailure
  let s := { s with executions := s.executions + 1, script := script }
  match failure with
  | some f => (.failed f, s)
  | none =>
    let fill := s.fillFor now o
    (.filled fill,
      { s with nextTicket := s.nextTicket + 1, fills := s.fills.put fill.ticket fill })

def broker : Broker Scripted where
  quote s symbol := let (i, s) := s.quote symbol; (.answer i, s)
  account _ login := some (Account.fresh login 100000 "USD")
  execute s now o := let (outcome, s') := s.execute now o; ⟨.answer outcome, s', s.latency⟩
  deal s ticket := (s.fills.get? ticket).map .filled
  symbols s := s.symbols.keys

end Scripted

end DealDesk
