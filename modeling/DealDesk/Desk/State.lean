import DealDesk.Backlog
import DealDesk.Gate
import DealDesk.Register
import DealDesk.Settings

/-!
# The state of a desk

* `Call` — what a caller, or the callback of an order, asks of a desk.
* `Program` — what a thread has still to do: a call it is in the middle of, and the calls after it.
* `Position` — where a worker stands; `Position.phase` is the phase it shows.
* `Desk β` — a desk with its workers and its callers, over a broker whose state is a `β`.

Everything a thread does is cut into atomic steps, and a program says where between two steps its
thread is. So any order in which threads can take turns is a sequence of steps of this state.
-/

namespace DealDesk

/-! ## Programs -/

inductive Call
  /-- Hand the settlement to a mailbox. -/
  | deliver (box : Nat)
  /-- Break off; nothing after it is done. -/
  | fail
  /-- Submit an order, with what to do once it is settled. -/
  | submit (order : Order) (callback : Option (List Call))
  | start
  | stop

/-- An accepted order on its way through the backlog. -/
structure Item where
  order : Order
  sequence : UInt64
  callback : Option (List Call)

/-- A call that is under way. -/
inductive Pending
  /-- The desk accepts orders; the sequence number comes next. -/
  | draw (order : Order) (callback : Option (List Call))
  | enqueue (item : Item)
  /-- The desk accepts no more orders; closing the backlog comes next. The workers to wait for are
  given if there are any. -/
  | close (workers : Option (List Nat))
  /-- Workers still to be waited for. -/
  | join (workers : List Nat)

structure Program where
  pending : Option Pending
  calls : List Call

namespace Program

def ofCalls (calls : List Call) : Program := { pending := none, calls := calls }

def finished (p : Program) : Bool := p.pending.isNone && p.calls.isEmpty

end Program

/-! ## Workers -/

/-- The phases of a worker's cycle. -/
inductive Phase
  | idle
  | dequeuing
  | validating
  | executing
  | recording
  | stopped
  deriving DecidableEq, Repr

def Phase.label : Phase → String
  | .idle => "Idle"
  | .dequeuing => "Dequeuing"
  | .validating => "Validating"
  | .executing => "Executing"
  | .recording => "Recording"
  | .stopped => "Stopped"

/-- What a worker does next. -/
inductive Position
  /-- Has not run yet. -/
  | starting
  | dequeuing
  /-- Show the item to the gate. -/
  | validating (item : Item)
  /-- Ask the broker for the symbol of an item that is new and sound. -/
  | quoting (item : Item)
  /-- Make execution call `attempt`, counted from zero. -/
  | calling (item : Item) (attempt : UInt32)
  /-- The call is made; the broker's answer comes next. -/
  | awaiting (item : Item) (attempt : UInt32)
  | recording (item : Item) (settlement : Settlement)
  /-- Run the callback. -/
  | notifying (item : Item) (settlement : Settlement) (program : Program)
  | stopped

namespace Position

def phase : Position → Phase
  | .starting => .idle
  | .dequeuing => .dequeuing
  | .validating _ | .quoting _ => .validating
  | .calling _ _ | .awaiting _ _ => .executing
  | .recording _ _ | .notifying _ _ _ => .recording
  | .stopped => .stopped

/-- The item in hand. -/
def item? : Position → Option Item
  | .validating i | .quoting i | .calling i _ | .awaiting i _ | .recording i _
  | .notifying i _ _ => some i
  | .starting | .dequeuing | .stopped => none

def isStopped : Position → Bool
  | .stopped => true
  | _ => false

/-- Is a broker's answer the next thing to come? -/
def isAwaiting : Position → Bool
  | .awaiting _ _ => true
  | _ => false

end Position

/-! ## Desks -/

inductive Thread
  | caller (n : Nat)
  | worker (n : Nat)
  deriving DecidableEq, Repr

inductive Lifecycle
  | idle
  | running
  | stopped
  deriving DecidableEq, Repr

structure Desk (β : Type) where
  settings : Settings
  broker : β
  register : Register
  backlog : Backlog Item
  gate : Gate
  accepting : Bool
  lifecycle : Lifecycle
  /-- Who holds the lock on the lifecycle. -/
  lock : Option Thread
  workers : List Position
  callers : List Program
  /-- The time of day, in milliseconds since 1970. -/
  now : Int64

namespace Desk

variable {β : Type}

/-- A desk that has not been started, without callers. -/
def closed (settings : Settings) (broker : β) (register : Register) : Desk β :=
  { settings := settings, broker := broker, register := register, backlog := Backlog.empty
    gate := Gate.empty, accepting := false, lifecycle := .idle, lock := none, workers := []
    callers := [], now := 0 }

/-- A desk over a register that may be shared; the settings have to pass their check. -/
def open? (settings : Settings) (broker : β) (register : Register) :
    Except SettingsError (Desk β) :=
  match settings.check with
  | .error e => .error e
  | .ok () => .ok (closed settings broker register)

def withCallers (d : Desk β) (programs : List (List Call)) : Desk β :=
  { d with callers := programs.map Program.ofCalls }

end Desk

end DealDesk
