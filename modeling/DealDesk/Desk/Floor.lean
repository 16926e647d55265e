import DealDesk.Desk.Run

/-!
# Several desks

* `Floor β` — desks that share one broker; each records into one of the floor's registers, and two
  desks may record into the same.
* `Floor.sharing` — desks before they are started, over one register that is empty.
* `Floor.step`, `Floor.follow` — one turn of a thread of one desk, and a schedule of turns.
* `Floor.handle`, `Floor.runAll` — calls to one desk, and a run of all desks.
-/

namespace DealDesk

structure Floor (β : Type) where
  broker : β
  registers : List Register
  /-- Each desk with the number of its register. The broker and the register inside a desk are
  stale; those of the floor count. -/
  desks : List (Nat × Desk β)

namespace Floor

variable {β : Type}

/-- The desk with what it shares. -/
def desk? (f : Floor β) (n : Nat) : Option (Desk β) :=
  (f.desks[n]?).map fun (r, d) =>
    { d with broker := f.broker, register := f.registers.getD r Register.empty }

/-- Puts a desk back, together with what it shares. -/
def setDesk (f : Floor β) (n : Nat) (d : Desk β) : Floor β :=
  match f.desks[n]? with
  | none => f
  | some (r, _) =>
    { broker := d.broker, registers := f.registers.set r d.register, desks := f.desks.set n (r, d) }

/-- Desks that record into one register, with their settings and the programs of their callers. -/
def sharing (s : β) (desks : List (Settings × List (List Call))) : Floor β :=
  { broker := s, registers := [Register.empty]
    desks := desks.map fun (settings, programs) =>
      (0, (Desk.closed settings s Register.empty).withCallers programs) }

/-- One turn of a thread of desk `n`, which calls broker `b n`: brokers may have their state apart
from one another, in one that has a part for each. -/
def step (b : Nat → Broker β) (n : Nat) (turn : Turn) (f : Floor β) :
    Option (Floor β × List Event) :=
  match f.desk? n with
  | none => none
  | some d => (d.tick (b n) turn).map fun (d, events) => (f.setDesk n d, events)

/-- The steps of a schedule in order, and what each desk did; `none` if one of them is not possible. -/
def follow (b : Nat → Broker β) :
    List (Nat × Turn) → Floor β → Option (Floor β × List (Nat × Thread × Event))
  | [], f => some (f, [])
  | (n, turn) :: rest, f =>
    match f.step b n turn with
    | none => none
    | some (f, events) =>
      (follow b rest f).map fun (f, later) =>
        (f, events.map (fun e => (n, turn.thread, e)) ++ later)

/-- Lets a new caller make these calls to desk `n`, and runs that desk. -/
def handle (b : Broker β) (held : Bool) (n : Nat) (calls : List Call) (f : Floor β) :
    Floor β × List (Thread × Event) :=
  match f.desk? n with
  | none => (f, [])
  | some d =>
    let (d, events) := d.handle b held calls
    (f.setDesk n d, events)

/-- Runs every desk. -/
def runAll (b : Broker β) (held : Bool) (f : Floor β) : Floor β × List (Thread × Event) :=
  (List.range f.desks.length).foldl
    (fun (f, events) n =>
      let (f, more) := f.handle b held n []
      (f, events ++ more))
    (f, [])

end Floor

end DealDesk
