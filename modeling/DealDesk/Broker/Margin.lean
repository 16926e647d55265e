/-!
# Margin books

* `MarginBook α` — the amounts of an account that trades on margin, as numbers of type `α`.
* `MarginBook.reserve` sets margin aside for a volume; it refuses iff the free margin is less than
  what the volume needs, and then nothing changes.

The amounts are doubles in a running broker. The rules are stated for any numbers, so the exact
book is the same definition at the rationals.
-/

namespace DealDesk

/-- What a lot costs. -/
structure MarginTerms (α : Type) where
  /-- Margin set aside for one lot. -/
  perLot : α
  /-- The share of that margin which is charged against the equity. -/
  impact : α
  hundred : α

structure MarginBook (α : Type) where
  balance : α
  equity : α
  free : α
  used : α
  /-- In percent. -/
  level : α
  deriving Repr

namespace MarginBook

variable {α : Type} [Add α] [Sub α] [Mul α] [Div α] [LT α] [DecidableLT α]

/-- Nothing is set aside. -/
def opening (zero balance : α) : MarginBook α :=
  { balance := balance, equity := balance, free := balance, used := zero, level := zero }

def required (t : MarginTerms α) (volume : α) : α := volume * t.perLot

/-- The book once the margin of `volume` is set aside. -/
def charged (t : MarginTerms α) (b : MarginBook α) (volume : α) : MarginBook α :=
  let amount := required t volume
  let used := b.used + amount
  let equity := b.equity - amount * t.impact
  { balance := b.balance, equity := equity, free := b.free - amount, used := used
    level := equity / used * t.hundred }

def reserve (t : MarginTerms α) (b : MarginBook α) (volume : α) : Option (MarginBook α) :=
  if b.free < required t volume then none else some (charged t b volume)

end MarginBook

end DealDesk
