import DealDesk.Broker

/-!
# Brokers that break

* `Broker.fragile` — a broker whose calls break off for some symbols. A call that breaks off does not
  reach the broker.
-/

namespace DealDesk

def Broker.fragile {β : Type} (b : Broker β) (quotes executions : List String) : Broker β :=
  { b with
    quote := fun s symbol => if symbol ∈ quotes then (.broke, s) else b.quote s symbol
    execute := fun s now o =>
      if o.symbol ∈ executions then ⟨.broke, s, 0⟩ else b.execute s now o }

end DealDesk
