import DealDesk.Desk.State

/-!
# What happens at a desk

* `Event` — one thing that a step of a desk does.
* `Event.line?` — the line of the log that tells of it, if one does.
* `Thread.name` — the name under which a thread writes to the log.
* `SubmitError`, `StartError` — why a call to a desk was refused.
-/

namespace DealDesk

/-! ## Refusals -/

inductive SubmitError
  | notRunning (id : OrderId)
  deriving DecidableEq, Repr

def SubmitError.message : SubmitError → String
  | .notRunning id => "Processor not running, request " ++ id.text ++ " not accepted"

inductive StartError
  | alreadyStopped
  | spawn (worker : Nat) (cause : String)
  deriving DecidableEq, Repr

def StartError.message : StartError → String
  | .alreadyStopped => "Processor already stopped"
  | .spawn worker cause => "Failed to spawn worker " ++ toString worker ++ ": " ++ cause

/-! ## Events -/

inductive Event
  -- the lifecycle
  | opening (workers : Nat)
  | opened
  /-- A start that found the desk running. -/
  | alreadyOpen
  | startRefused
  | draining (depth : Nat)
  | skippedSelf
  | joined
  -- an order on its way in
  | received (order : Order)
  | accepted (item : Item)
  | refused (order : Order)
  | refusedLate (order : Order)
  -- a worker
  | started
  | phase (before after : Phase)
  | ended
  -- an item
  | validating (item : Item)
  | duplicate (item : Item)
  | objected (item : Item) (settlement : Settlement)
  | quoted (item : Item)
  | cleared (item : Item)
  /-- The call after the wait, by its number, is one of so many. -/
  | waiting (item : Item) (number : UInt32) (calls : UInt32) (delay : Span)
  | called (item : Item)
  | answered (item : Item) (outcome : Outcome) (delay : Nat)
  | noted (text : String)
  | transient (failure : Failure)
  | executed (settlement : Settlement)
  | failed (settlement : Settlement)
  /-- A call to the broker breaks off. -/
  | broke (item : Item)
  /-- There is no number for the next call. -/
  | overrun (item : Item)
  | recorded (item : Item) (settlement : Settlement)
  -- the callback of an item
  | notified (item : Item) (settlement : Settlement)
  | delivered (box : Nat) (settlement : Settlement)
  | callbackBroke (item : Item)

/-! ## The log -/

inductive Level
  | debug
  | info
  | warn
  | error
  deriving DecidableEq, Repr

def Level.label : Level → String
  | .debug => "DEBUG"
  | .info => "INFO"
  | .warn => "WARN"
  | .error => "ERROR"

/-- Callers share one name. -/
def Thread.name : Thread → String
  | .caller _ => "main"
  | .worker n => "deal-worker-" ++ toString n

/-- The line that thread `who` writes. -/
def Event.line? (who : String) : Event → Option (Level × String)
  | .opening n => some (.info, "DealProcessor starting with " ++ toString n ++ " worker threads")
  | .opened => some (.info, "DealProcessor started successfully")
  | .draining depth =>
    some (.info, "DealProcessor shutting down... draining queue (" ++ toString depth ++ " pending)")
  | .skippedSelf => some (.debug, "Skipping join of current worker thread")
  | .joined => some (.info, "DealProcessor stopped. All workers joined.")
  | .received o => some (.info, "Request received: " ++ o.describe)
  | .refused o =>
    some (.error, "Cannot submit request - processor not running: " ++ o.id.text)
  | .refusedLate o =>
    some (.error, "Cannot submit request - processor shutting down: " ++ o.id.text)
  | .started => some (.info, who ++ " started")
  | .phase before after =>
    some (.debug, who ++ " " ++ before.label ++ " -> " ++ after.label)
  | .ended => some (.info, who ++ " stopped")
  | .validating i => some (.debug, who ++ " validating: " ++ i.order.id.text)
  | .duplicate i => some (.warn, "Duplicate request detected: " ++ i.order.id.text)
  | .objected _ s => some (.warn, who ++ " validation failed: " ++ s.describe)
  | .cleared i => some (.debug, who ++ " validation passed: " ++ i.order.id.text)
  | .waiting i number calls delay =>
    some (.warn, who ++ " retrying " ++ i.order.id.text ++ " (attempt "
      ++ toString number.toNat ++ "/" ++ toString calls.toNat ++ ", delay="
      ++ toString delay.millis ++ "ms)")
  | .called i => some (.debug, who ++ " executing: " ++ i.order.describe)
  | .noted text => some (.debug, text)
  | .transient f => some (.warn, who ++ " transient failure: " ++ f.reason)
  | .executed s => some (.info, who ++ " EXECUTED: " ++ s.describe)
  | .failed s => some (.error, who ++ " FAILED: " ++ s.describe)
  | .broke i | .overrun i =>
    some (.error, who ++ " panicked while processing " ++ i.order.id.text)
  | .callbackBroke i =>
    some (.error, who ++ " completion callback panicked for " ++ i.order.id.text)
  | .alreadyOpen | .startRefused | .accepted _ | .quoted _ | .answered .. | .recorded ..
  | .notified .. | .delivered .. => none

end DealDesk
