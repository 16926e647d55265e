import DealDesk.Desk.Step

/-!
# Running a desk

* `Desk.advance` — one step of the first thread that can take one: workers before callers.
* `Desk.run` — steps until no thread can take one. It is one of the schedules that `Desk.follow`
  allows.
* `Desk.budget` — a number of steps that no run exceeds.
* `Desk.handle` — lets a caller make some calls, and runs the desk.
-/

namespace DealDesk

/-! ## How long a run can be -/

mutual

/-- Steps that a call can lead to at a desk with so many workers and execution calls per item. -/
def Call.cost (workers attempts : Nat) : Call → Nat
  | .deliver _ => 1
  | .fail => 1
  | .submit _ none => 12 + 2 * attempts
  | .submit _ (some calls) => 12 + 2 * attempts + Call.costs workers attempts calls
  | .start => 1 + 3 * workers
  | .stop => 4 + workers

def Call.costs (workers attempts : Nat) : List Call → Nat
  | [] => 0
  | c :: cs => c.cost workers attempts + Call.costs workers attempts cs

end

/-- What the members of a list cost together. -/
def total {α : Type} (cost : α → Nat) : List α → Nat
  | [] => 0
  | a :: l => cost a + total cost l

namespace Desk

variable {β : Type}

def itemCost (workers attempts : Nat) (i : Item) : Nat :=
  12 + 2 * attempts + Call.costs workers attempts (i.callback.getD [])

def pendingCost (workers attempts : Nat) : Pending → Nat
  | .draw _ callback => 12 + 2 * attempts + Call.costs workers attempts (callback.getD [])
  | .enqueue item => itemCost workers attempts item
  | .close _ => 4 + workers
  | .join _ => 4 + workers

def programCost (workers attempts : Nat) (p : Program) : Nat :=
  (match p.pending with
    | some pending => pendingCost workers attempts pending
    | none => 0) + Call.costs workers attempts p.calls

def positionCost (workers attempts : Nat) (p : Position) : Nat :=
  3 + (match p.item? with
    | some item => itemCost workers attempts item
    | none => 0) + (match p with
    | .notifying _ _ program => programCost workers attempts program
    | _ => 0)

def budget (d : Desk β) : Nat :=
  let workers := d.settings.workers.toNat
  let attempts := d.settings.maxRetries.toNat + 1
  total (itemCost workers attempts) d.backlog.items
    + total (positionCost workers attempts) d.workers
    + total (programCost workers attempts) d.callers

/-! ## The schedule -/

def threads (d : Desk β) : List Thread :=
  (List.range d.workers.length).map .worker ++ (List.range d.callers.length).map .caller

/-- A worker whose next step is a broker's answer stands still while the broker is held up. -/
def isHeld (d : Desk β) (held : Bool) : Thread → Bool
  | .caller _ => false
  | .worker n => held && ((d.workers[n]?).map Position.isAwaiting).getD false

def advance (b : Broker β) (held : Bool) (d : Desk β) : Option (Desk β × List (Thread × Event)) :=
  d.threads.findSome? fun t =>
    if d.isHeld held t then none
    else (d.step b t).map fun (d, events) => (d, events.map fun e => (t, e))

/-- At most so many steps. -/
def runFor (b : Broker β) (held : Bool) : Nat → Desk β → Desk β × List (Thread × Event)
  | 0, d => (d, [])
  | fuel + 1, d =>
    match d.advance b held with
    | none => (d, [])
    | some (d, events) =>
      let (d, later) := runFor b held fuel d
      (d, events ++ later)

/-- Steps until no thread can take one; while the broker is held up, no call is answered. -/
def run (b : Broker β) (held : Bool) (d : Desk β) : Desk β × List (Thread × Event) :=
  runFor b held d.budget d

/-- Lets a new caller make these calls and runs the desk; callers that are done leave. -/
def handle (b : Broker β) (held : Bool) (calls : List Call) (d : Desk β) :
    Desk β × List (Thread × Event) :=
  let (d, events) := run b held { d with callers := d.callers ++ [Program.ofCalls calls] }
  ({ d with callers := d.callers.filter fun p => !p.finished }, events)

end Desk

end DealDesk
