import DealDesk.Backlog

/-!
# Waiting for the backlog

* `Waiter α` — a thread inside `dequeue`: about to look, parked, woken, or answered.
* `Parking α` — the backlog, the threads inside `dequeue`, and the wake-up calls still to be given.
* `Parking.step` — one atomic step: an operation on the backlog, a look by one thread, a wake-up
  call, or a wake-up for no reason. Parking and letting go of the lock are one step.
* `Parking.follow` — the steps of a schedule, one after the other.
* `Parking.settle` lets the threads run until none of them can.

An accepted item is followed by a call that wakes one parked thread, and closing by a call that
wakes all; both calls are steps of their own, so anything may come in between, and calls that wait
may be given in any order.
-/

namespace DealDesk

inductive Waiter (α : Type)
  | looking
  | parked
  | woken
  | answered (a : Option α)
  deriving DecidableEq, Repr

inductive WakeUp
  | one
  | all
  deriving DecidableEq, Repr

structure Parking (α : Type) where
  backlog : Backlog α
  waiters : List (Waiter α)
  calls : List WakeUp
  deriving DecidableEq, Repr

namespace Parking

variable {α : Type}

def ofBacklog (q : Backlog α) : Parking α := { backlog := q, waiters := [], calls := [] }

inductive Step (α : Type)
  | enqueue (a : α)
  | tryDequeue
  | close
  /-- A new thread enters `dequeue`. -/
  | arrive
  /-- Thread `n` takes the lock and looks. -/
  | look (n : Nat)
  /-- Wake-up call `k` of those still to be given is given; a call for one thread goes to thread `n`
  if it is parked. -/
  | call (k n : Nat)
  /-- Thread `n` wakes up for no reason. -/
  | stir (n : Nat)
  deriving DecidableEq, Repr

/-- A thread that looks takes an item, learns that there is none left, or parks. -/
def look (p : Parking α) (n : Nat) : Parking α :=
  match p.backlog.dequeue with
  | (.item a, q) => { p with backlog := q, waiters := p.waiters.set n (.answered (some a)) }
  | (.drained, q) => { p with backlog := q, waiters := p.waiters.set n (.answered none) }
  | (.wait, q) => { p with backlog := q, waiters := p.waiters.set n .parked }

def Waiter.wake : Waiter α → Waiter α
  | .parked => .woken
  | w => w

def anyParked (p : Parking α) : Bool :=
  p.waiters.any fun
    | .parked => true
    | _ => false

/-- `none` when the step is not possible now. -/
def step (p : Parking α) : Step α → Option (Parking α)
  | .enqueue a =>
    match p.backlog.enqueue a with
    | .ok q => some { p with backlog := q, calls := p.calls ++ [.one] }
    | .error _ => some p
  | .tryDequeue => some { p with backlog := p.backlog.tryDequeue.2 }
  | .close =>
    if p.backlog.closed then some p
    else some { p with backlog := p.backlog.close, calls := p.calls ++ [.all] }
  | .arrive => some { p with waiters := p.waiters ++ [.looking] }
  | .look n =>
    match p.waiters[n]? with
    | some .looking | some .woken => some (p.look n)
    | _ => none
  | .call k n =>
    match p.calls[k]? with
    | none => none
    | some .all =>
      some { p with waiters := p.waiters.map Waiter.wake, calls := p.calls.eraseIdx k }
    | some .one =>
      match p.waiters[n]? with
      | some .parked =>
        some { p with waiters := p.waiters.set n .woken, calls := p.calls.eraseIdx k }
      | _ => if p.anyParked then none else some { p with calls := p.calls.eraseIdx k }
  | .stir n =>
    match p.waiters[n]? with
    | some .parked => some { p with waiters := p.waiters.set n .woken }
    | _ => none

/-- The steps of a schedule in order; `none` if one of them is not possible. -/
def follow : List (Step α) → Parking α → Option (Parking α)
  | [], p => some p
  | s :: rest, p =>
    match p.step s with
    | none => none
    | some p => follow rest p

/-! ## Running -/

/-- The steps the threads themselves can take: looks and wake-up calls, the oldest call first. -/
def pending (p : Parking α) : List (Step α) :=
  (List.range (p.waiters.length + 1)).flatMap fun n => [.look n, .call 0 n]

/-- The first possible step of a thread. -/
def advance (p : Parking α) : Option (Parking α) := p.pending.findSome? p.step

/-- Runs the threads for at most so many steps. -/
def settleFor : Nat → Parking α → Parking α
  | 0, p => p
  | fuel + 1, p =>
    match p.advance with
    | some p => settleFor fuel p
    | none => p

/-- Each wake-up call wakes every thread at most once, and each thread looks once for it. -/
def settle (p : Parking α) : Parking α :=
  settleFor ((p.calls.length + 1) * (2 * p.waiters.length + 1)) p

/-- One step from outside, after which the threads run until none of them can. -/
def perform (p : Parking α) (s : Step α) : Parking α := ((p.step s).getD p).settle

/-- What the threads in `dequeue` were given, in the order they came; `none` while one waits. -/
def answers? (p : Parking α) : Option (List (Option α)) :=
  p.waiters.mapM fun
    | .answered a => some a
    | _ => none

end Parking

end DealDesk
