import DealDesk.Account
import DealDesk.Instrument
import DealDesk.Outcome

/-!
# Brokers

* `Broker β` — the operations of a broker whose state is a `β`. A quote or an execution may also
  break off without an answer.
* `Broker.plain` — a broker that keeps no session: connecting always works, and no symbol is listed.
-/

namespace DealDesk

inductive Reply (α : Type)
  | answer (a : α)
  /-- The call broke off and gave no answer. -/
  | broke
  deriving Repr

inductive SessionError
  | refused (server reason : String)
  | notConnected
  deriving DecidableEq, Repr

def SessionError.message : SessionError → String
  | .refused server reason => "Connection to " ++ server ++ " refused: " ++ reason
  | .notConnected => "Not connected to a trade server"

/-- The state after a call, what the call gave, and how many milliseconds it took. -/
structure Called (β α : Type) where
  reply : α
  state : β
  delay : Nat := 0

structure Broker (β : Type) where
  /-- Specification and prices of a symbol. -/
  quote : β → String → Reply (Option Instrument) × β
  account : β → UInt64 → Option Account
  /-- One attempt to execute an order, at a given time. -/
  execute : β → Int64 → Order → Called β (Reply Outcome)
  /-- The deal booked under a ticket. -/
  deal : β → String → Option Outcome
  /-- What the broker notes down when an execution has this outcome. -/
  notes : Outcome → List String := fun _ => []
  connect : β → (server : String) → (login : UInt64) → (password : String) →
      Called β (Except SessionError Unit) := fun s _ _ _ => ⟨.ok (), s, 0⟩
  disconnect : β → β := id
  isConnected : β → Bool := fun _ => true
  symbols : β → List String := fun _ => []

/-- The broker without its session operations. -/
def Broker.plain {β : Type} (b : Broker β) : Broker β :=
  { quote := b.quote, account := b.account, execute := b.execute, deal := b.deal }

end DealDesk
