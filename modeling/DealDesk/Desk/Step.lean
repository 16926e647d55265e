import DealDesk.Desk.Event

/-!
# The steps of a desk

* `Desk.perform` — one step of a program: a caller's, or that of a callback in a worker's hands.
* `Desk.work` — one step of a worker.
* `Desk.step` — one step of a thread; `none` while the thread has to wait, and once it is done.
* `Turn` — a thread and the time of day at which it takes a step.
* `Desk.follow` — the steps of a schedule, one turn after the other.

A worker takes an item through gate, broker and register, and then runs its callback. Work on an item
that breaks off, in a call to the broker or because 32 bits have no number for the next call, is
settled as a lost connection, and a callback that breaks off ends there.
-/

namespace DealDesk

/-- A thread gets to take a step, at a time of day. -/
structure Turn where
  thread : Thread
  now : Int64

namespace Desk

variable {β : Type}

/-! ## Programs -/

/-- Starting: the workers are there and orders are accepted. That a thread could not be brought up is
left out, so no step ends with `StartError.spawn`. -/
def openUp (d : Desk β) : Desk β :=
  { d with workers := List.replicate d.settings.workers.toNat .starting
           lifecycle := .running, accepting := true }

/-- Has worker `n` stopped, or was there never such a worker? -/
def hasStopped (d : Desk β) (n : Nat) : Bool :=
  match d.workers[n]? with
  | some p => p.isStopped
  | none => true

/-- The next step of a call that is under way. -/
def resume (t : Thread) (d : Desk β) : Pending → Option (Desk β × Option Pending × List Event)
  | .draw order callback =>
    let (sequence, register) := d.register.drawSequence
    let item : Item := { order := order, sequence := sequence, callback := callback }
    some ({ d with register := register }, some (.enqueue item), [])
  | .enqueue item =>
    match d.backlog.enqueue item with
    | .ok backlog => some ({ d with backlog := backlog }, none, [.accepted item])
    | .error item => some (d, none, [.refusedLate item.order])
  | .close none => some ({ d with backlog := d.backlog.close, lock := none }, none, [])
  | .close (some workers) =>
    some ({ d with backlog := d.backlog.close }, some (.join workers),
      [.draining d.backlog.depth])
  | .join [] => some ({ d with lock := none }, none, [.joined])
  | .join (n :: rest) =>
    if t = .worker n then some (d, some (.join rest), [.skippedSelf])
    else if d.hasStopped n then some (d, some (.join rest), [])
    else none

/-- Starting and stopping take the lock on the lifecycle, and wait while another thread has it. -/
def begin (t : Thread) (d : Desk β) : Call → Option (Desk β × Option Pending × List Event)
  | .deliver _ | .fail => some (d, none, [])
  | .submit order callback =>
    if d.accepting then some (d, some (.draw order callback), [.received order])
    else some (d, none, [.refused order])
  | .start =>
    if d.lock.isSome then none
    else match d.lifecycle with
      | .running => some (d, none, [.alreadyOpen])
      | .stopped => some (d, none, [.startRefused])
      | .idle => some (d.openUp, none, [.opening d.settings.workers.toNat, .opened])
  | .stop =>
    if d.lock.isSome then none
    else
      let workers := match d.lifecycle with
        | .running => some (List.range d.workers.length)
        | _ => none
      some ({ d with lock := some t, accepting := false, lifecycle := .stopped },
        some (.close workers), [])

/-- One step of a program that belongs to thread `t`. -/
def perform (t : Thread) (p : Program) (d : Desk β) : Option (Desk β × Program × List Event) :=
  match p.pending with
  | some pending =>
    (d.resume t pending).map fun (d, pending, events) => (d, { p with pending := pending }, events)
  | none =>
    match p.calls with
    | [] => none
    | call :: calls =>
      (d.begin t call).map fun (d, pending, events) =>
        (d, { pending := pending, calls := calls }, events)

/-! ## Workers -/

/-- The item is settled; it is recorded next. -/
def settled (before : Phase) (item : Item) (s : Settlement) (events : List Event) :
    Position × List Event :=
  (.recording item (s.withSequence item.sequence), events ++ [.phase before .recording])

/-- The gate objects. -/
def object (d : Desk β) (item : Item) (why : Objection) (events : List Event) :
    Position × List Event :=
  let s := why.settlement d.now item.order
  settled .validating item s (events ++ [.objected item s])

def breakText : String := "Broker call panicked during processing"

/-- Work on the item broke off. -/
def breakOff (d : Desk β) (before : Phase) (item : Item) (event : Event) :
    Position × List Event :=
  settled before item (Settlement.refused d.now item.order .connectionError breakText) [event]

def showToGate (d : Desk β) (item : Item) : Desk β × Position × List Event :=
  match d.gate.enter item.order.id with
  | (false, gate) => ({ d with gate := gate }, d.object item .duplicate [.duplicate item])
  | (true, gate) =>
    match item.order.flaw with
    | some why => ({ d with gate := gate }, d.object item why [])
    | none => ({ d with gate := gate }, .quoting item, [])

def askForSymbol (b : Broker β) (d : Desk β) (item : Item) : Desk β × Position × List Event :=
  match b.quote d.broker item.order.symbol with
  | (.broke, broker) =>
    let (position, events) := d.breakOff .validating item (.broke item)
    ({ d with broker := broker }, position, .quoted item :: events)
  | (.answer i, broker) =>
    match item.order.clash i with
    | some why => ({ d with broker := broker }, d.object item why [.quoted item])
    | none =>
      ({ d with broker := broker }, .calling item 0,
        [.quoted item, .cleared item, .phase .validating .executing])

/-- A retry waits first, and the log, which is taken to have warnings in it, has the number of its
call. Where there is no such number, the worker breaks off instead. -/
def makeCall (d : Desk β) (item : Item) (attempt : UInt32) : Position × List Event :=
  match RetryRule.ordinal? attempt with
  | none => d.breakOff .executing item (.overrun item)
  | some number =>
    let rule := d.settings.retryRule
    let wait := if attempt = 0 then []
      else [Event.waiting item number rule.maxAttempts (rule.backoff attempt)]
    (.awaiting item attempt, wait ++ [.called item])

def takeAnswer (b : Broker β) (d : Desk β) (item : Item) (attempt : UInt32) :
    Desk β × Position × List Event :=
  let called := b.execute d.broker d.now item.order
  let d := { d with broker := called.state }
  match called.reply with
  | .broke => (d, d.breakOff .executing item (.broke item))
  | .answer outcome =>
    let told := .answered item outcome called.delay :: (b.notes outcome).map .noted
    match d.settings.retryRule.next d.now item.order attempt outcome with
    | .again failure => (d, .calling item (attempt + 1), told ++ [.transient failure])
    | .settle s =>
      let verdict := if s.isSuccess then Event.executed s else Event.failed s
      (d, settled .executing item s (told ++ [verdict]))

/-- The cycle begins anew. -/
def turn (events : List Event) : Position × List Event :=
  (.dequeuing, events ++ [.phase .recording .idle, .phase .idle .dequeuing])

def recordItem (d : Desk β) (item : Item) (s : Settlement) : Desk β × Position × List Event :=
  let d := { d with register := d.register.record s }
  match item.callback with
  | none => (d, turn [.recorded item s])
  | some calls =>
    (d, .notifying item s (Program.ofCalls calls), [.recorded item s, .notified item s])

/-- One step of a callback; delivering and breaking off concern the worker alone. -/
def notify (d : Desk β) (t : Thread) (item : Item) (s : Settlement) (p : Program) :
    Option (Desk β × Position × List Event) :=
  match p.pending, p.calls with
  | none, [] => some (d, turn [])
  | none, .fail :: _ => some (d, turn [.callbackBroke item])
  | none, .deliver box :: calls =>
    some (d, .notifying item s (Program.ofCalls calls), [.delivered box s])
  | _, _ => (d.perform t p).map fun (d, p, events) => (d, .notifying item s p, events)

/-- One step of worker `n`, which stands at `position`. -/
def work (b : Broker β) (d : Desk β) (n : Nat) :
    Position → Option (Desk β × Position × List Event)
  | .starting => some (d, .dequeuing, [.started, .phase .idle .dequeuing])
  | .dequeuing =>
    match d.backlog.dequeue with
    | (.item item, backlog) =>
      some ({ d with backlog := backlog }, .validating item,
        [.phase .dequeuing .validating, .validating item])
    | (.drained, _) => some (d, .stopped, [.phase .dequeuing .stopped, .ended])
    | (.wait, _) => none
  | .validating item => some (d.showToGate item)
  | .quoting item => some (d.askForSymbol b item)
  | .calling item attempt => some (d, d.makeCall item attempt)
  | .awaiting item attempt => some (d.takeAnswer b item attempt)
  | .recording item s => some (d.recordItem item s)
  | .notifying item s p => d.notify (.worker n) item s p
  | .stopped => none

/-! ## Threads -/

def step (b : Broker β) (t : Thread) (d : Desk β) : Option (Desk β × List Event) :=
  match t with
  | .caller n =>
    match d.callers[n]? with
    | none => none
    | some p =>
      (d.perform t p).map fun (d, p, events) => ({ d with callers := d.callers.set n p }, events)
  | .worker n =>
    match d.workers[n]? with
    | none => none
    | some position =>
      (d.work b n position).map fun (d, position, events) =>
        ({ d with workers := d.workers.set n position }, events)

/-! ## Schedules -/

/-- One step of a thread at a time of day. -/
def tick (b : Broker β) (turn : Turn) (d : Desk β) : Option (Desk β × List Event) :=
  step b turn.thread { d with now := turn.now }

/-- The steps of a schedule in order; `none` if one of them is not possible. -/
def follow (b : Broker β) : List Turn → Desk β → Option (Desk β × List (Thread × Event))
  | [], d => some (d, [])
  | turn :: rest, d =>
    match d.tick b turn with
    | none => none
    | some (d, events) =>
      (follow b rest d).map fun (d, later) => (d, events.map (fun e => (turn.thread, e)) ++ later)

end Desk

end DealDesk
