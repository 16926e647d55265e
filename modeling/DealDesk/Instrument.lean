import DealDesk.Decimal.Binary

/-!
# Instruments

* `Instrument` — what a broker says of a symbol: prices, lot limits, lot step, permission to trade.
* `Instrument.allows` — lot limits, both ends included.
* `Instrument.aligned` — a whole number of lot steps, within a tolerance on the ratio.
-/

namespace DealDesk

structure Instrument where
  symbol : String
  bid : Float
  ask : Float
  minVolume : Float
  maxVolume : Float
  volumeStep : Float
  /-- Decimal places of a price. -/
  digits : UInt32
  tradeable : Bool
  deriving Repr

namespace Instrument

/-- How far the ratio of a volume to the lot step may be from a whole number. -/
def stepTolerance : Float := 1e-6

/-- The same instrument with both prices moved by `delta`. -/
def shifted (i : Instrument) (delta : Float) : Instrument :=
  { i with bid := i.bid + delta, ask := i.ask + delta }

/-- No volume that is no number is allowed. -/
def allows (i : Instrument) (volume : Float) : Bool :=
  i.minVolume <= volume && volume <= i.maxVolume

/-- A step that is not positive asks for nothing. -/
def aligned (i : Instrument) (volume : Float) : Bool :=
  if i.volumeStep <= 0 then true
  else
    let steps := volume / i.volumeStep
    (steps - Decimal.nearestInteger steps).abs <= stepTolerance

end Instrument

end DealDesk
