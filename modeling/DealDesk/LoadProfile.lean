import DealDesk.Client
import DealDesk.Desk.Run

/-!
# Load profiles

* `LoadProfile` — how many clients place how many orders at what pace, and the settings of the desk
  they place them at. `LoadProfile.normal` and `LoadProfile.burst` are the two that are built in.
* `LoadProfile.run` — a desk is opened, every client places its orders, and the desk is stopped.
* `RunReport` — what such a run came to.
-/

namespace DealDesk

open DealDesk.Random

structure LoadProfile where
  name : String
  /-- What the names of the clients begin with. -/
  stem : String
  clients : UInt64
  requests : UInt64
  minDelayMs : UInt64
  maxDelayMs : UInt64
  sendBad : Bool
  settings : Settings
  deriving Repr

namespace LoadProfile

/-- A few clients at a human pace. -/
def normal : LoadProfile :=
  { name := "normal", stem := "Client", clients := 5, requests := 10, minDelayMs := 50
    maxDelayMs := 200, sendBad := true, settings := Settings.make 4 3 (Span.ofMillis 100) }

/-- Many clients as fast as they can. -/
def burst : LoadProfile :=
  { name := "burst", stem := "Burst", clients := 10, requests := 20, minDelayMs := 1
    maxDelayMs := 10, sendBad := true, settings := Settings.make 8 2 (Span.ofMillis 50) }

/-- Orders in all; `none` if they cannot be counted in 64 bits. -/
def totalRequests (p : LoadProfile) : Option Nat :=
  let n := p.clients.toNat * p.requests.toNat
  if n < Nat.pow 2 64 then some n else none

/-- Clients are numbered from one. -/
def clientName (p : LoadProfile) (n : Nat) : String := p.stem ++ "-" ++ toString n

def planFor (p : LoadProfile) (n : Nat) : ClientPlan :=
  { name := p.clientName n, requests := p.requests.toNat, minDelayMs := p.minDelayMs
    maxDelayMs := p.maxDelayMs, sendBad := p.sendBad }

/-- Client `n` of a run with a seed makes its choices from the seed plus `n`. -/
def clientSeed (seed : UInt64) (n : Nat) : UInt64 := seed + UInt64.ofNat n

end LoadProfile

/-! ## Running a profile -/

structure RunReport where
  profile : String
  submitted : Nat
  accepted : Nat
  /-- Settlements that reached the clients. -/
  delivered : Nat
  submitElapsed : Span
  totalElapsed : Span
  register : Register

namespace RunReport

/-- Accepted orders without a settlement. -/
def lost (r : RunReport) : Nat := r.accepted - r.register.size

/-- Accepted orders per second. -/
def throughput (r : RunReport) : Float :=
  let seconds := r.totalElapsed.toSeconds
  if 0 < seconds then Float.ofNat r.accepted / seconds else 0

end RunReport

/-- What a mailbox received, in order. -/
def mailbox (box : Nat) (events : List (Thread × Event)) : List Settlement :=
  events.filterMap fun
    | (_, .delivered n s) => if n = box then some s else none
    | _ => none

def countAccepted (events : List (Thread × Event)) : Nat :=
  events.countP fun
    | (_, .accepted _) => true
    | _ => false

/-- A run of a profile: its report, and what each client was sent. -/
structure ProfileRun where
  report : RunReport
  mail : List (String × List Settlement)

namespace LoadProfile

variable {β ρ : Type} [Source ρ]

/-- The calls of client `n`, whose mailbox has its number. -/
def callsFor (p : LoadProfile) (choices names : Nat → ρ) (n : Nat) : List Call :=
  let c := Client.ofPlan (p.planFor n) (choices n) (names n)
  submissions n ((c.orders 0).1.map Prod.fst)

/-- Opens a desk, lets every client place its orders, and stops the desk. The clients draw their
choices and the names of their orders from the given sources. Elapsed times are left at zero. -/
def run (p : LoadProfile) (b : Broker β) (broker : β) (choices names : Nat → ρ) :
    Except SettingsError ProfileRun :=
  match Desk.open? p.settings broker Register.empty with
  | .error e => .error e
  | .ok desk =>
    let numbers := (List.range p.clients.toNat).map (· + 1)
    let (desk, _) := desk.handle b false [.start]
    let desk := { desk with
      callers := numbers.map fun n => Program.ofCalls (p.callsFor choices names n) }
    let (desk, events) := desk.run b false
    let (desk, last) := desk.handle b false [.stop]
    let events := events ++ last
    let mail := numbers.map fun n => (p.clientName n, mailbox n events)
    .ok
      { report :=
          { profile := p.name, submitted := p.totalRequests.getD 0
            accepted := countAccepted events
            delivered := (mail.flatMap Prod.snd).length
            submitElapsed := Span.ofNanos 0, totalElapsed := Span.ofNanos 0
            register := desk.register }
        mail := mail }

end LoadProfile

end DealDesk
