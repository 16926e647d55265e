import DealDesk.Broker.Paper
import DealDesk.LoadProfile
import DealDesk.Settings.Layers

/-!
# The command line

* `Arguments` — what the words of a command line ask for.
* `Arguments.ofWords` — reads them from left to right. An option is followed by its value, in the next
  word or after an equals sign; a flag has no value.
* `ArgumentError` — why words make no command line, or what is asked for instead of a run.
* `Arguments.profile` — the load profile that the arguments choose and change.

A value is checked when the next word has been found to be an option or a flag, or at the end. So an
unknown word is reported before a bad value that stands in front of it.
-/

namespace DealDesk

structure Arguments where
  burst : Bool := false
  config : Option String := none
  failureRate : Float := 0.05
  clients : Option UInt64 := none
  requests : Option UInt64 := none
  seed : Option UInt64 := none
  json : Bool := false
  server : String := "paper.demo"
  login : UInt64 := Paper.demoLogin

inductive ArgumentError
  | unknownWord
  | badValue
  | missingValue
  | givenTwice
  | needlessValue
  deriving DecidableEq, Repr

def ArgumentError.message : ArgumentError → String
  | .unknownWord => "unexpected argument found"
  | .badValue => "invalid value for an option"
  | .missingValue => "a value is required for an option but none was supplied"
  | .givenTwice => "an option cannot be used multiple times"
  | .needlessValue => "unexpected value for a flag"

/-- What stops the reading of a command line. -/
inductive Halt
  | error (e : ArgumentError)
  | help
  | version
  deriving DecidableEq, Repr

namespace Arguments

/-! ## Options and flags -/

inductive Parameter
  | config
  | failureRate
  | clients
  | requests
  | seed
  | server
  | login
  deriving DecidableEq, Repr

inductive Switch
  | burst
  | json
  | help
  | version
  deriving DecidableEq, Repr

inductive Name
  | parameter (p : Parameter)
  | switch (s : Switch)
  deriving DecidableEq, Repr

/-- The options and flags by their names after two dashes. -/
def names : Table String Name :=
  [("burst", .switch .burst), ("config", .parameter .config),
    ("failure-rate", .parameter .failureRate), ("clients", .parameter .clients),
    ("requests", .parameter .requests), ("seed", .parameter .seed), ("json", .switch .json),
    ("server", .parameter .server), ("login", .parameter .login), ("help", .switch .help),
    ("version", .switch .version)]

def word64 (text : String) : Except Halt UInt64 :=
  match Decimal.readWhole (Nat.pow 2 64) text with
  | some n => .ok (UInt64.ofNat n)
  | none => .error (.error .badValue)

/-- The arguments with the value of an option. -/
def assign (a : Arguments) (p : Parameter) (text : String) : Except Halt Arguments :=
  match p with
  | .config =>
    if text.isEmpty then .error (.error .missingValue) else .ok { a with config := some text }
  | .failureRate =>
    match Decimal.readSigned text with
    | some x => .ok { a with failureRate := x }
    | none => .error (.error .badValue)
  | .clients => (word64 text).map fun n => { a with clients := some n }
  | .requests => (word64 text).map fun n => { a with requests := some n }
  | .seed => (word64 text).map fun n => { a with seed := some n }
  | .server => .ok { a with server := text }
  | .login => (word64 text).map fun n => { a with login := n }

/-! ## Reading -/

/-- An option that has been named, and its value if that has been read. -/
structure Waiting where
  parameter : Parameter
  value : Option String

structure Reading where
  arguments : Arguments
  /-- The options and flags so far. -/
  seen : List Name
  waiting : Option Waiting

def Reading.start : Reading := { arguments := {}, seen := [], waiting := none }

/-- Marks an option or a flag as given. -/
def Reading.mark (r : Reading) (n : Name) : Except Halt Reading :=
  if n ∈ r.seen then .error (.error .givenTwice) else .ok { r with seen := n :: r.seen }

/-- An option with its value. -/
def Reading.give (r : Reading) (p : Parameter) (value : String) : Except Halt Reading := do
  let r ← r.mark (.parameter p)
  let arguments ← r.arguments.assign p value
  return { r with arguments := arguments }

/-- The option that was waiting gets its value. -/
def Reading.settle (r : Reading) : Except Halt Reading :=
  match r.waiting with
  | none => .ok r
  | some ⟨_, none⟩ => .error (.error .missingValue)
  | some ⟨p, some value⟩ => ({ r with waiting := none } : Reading).give p value

def Reading.turnOn (r : Reading) (s : Switch) : Except Halt Reading := do
  let r ← r.settle
  match s with
  | .help => throw .help
  | .version => throw .version
  | .burst =>
    let r ← r.mark (.switch s)
    return { r with arguments := { r.arguments with burst := true } }
  | .json =>
    let r ← r.mark (.switch s)
    return { r with arguments := { r.arguments with json := true } }

/-- A word after two dashes. -/
def Reading.long (r : Reading) (cs : List Char) : Except Halt Reading :=
  let name := String.ofList (cs.takeWhile (· ≠ '='))
  let attached := match cs.dropWhile (· ≠ '=') with
    | _ :: value => some (String.ofList value)
    | [] => none
  match names.get? name, attached with
  | none, _ => .error (.error .unknownWord)
  | some (.switch _), some _ => .error (.error .needlessValue)
  | some (.switch s), none => r.turnOn s
  | some (.parameter p), some value => do
    let r ← r.settle
    r.give p value
  | some (.parameter p), none => do
    let r ← r.settle
    return { r with waiting := some ⟨p, none⟩ }

/-- A word after one dash: only help and version have a short form. -/
def Reading.short (r : Reading) : List Char → Except Halt Reading
  | 'h' :: _ => r.turnOn .help
  | 'V' :: _ => r.turnOn .version
  | _ => .error (.error .unknownWord)

/-- A word by itself is the value of the option before it. -/
def Reading.bare (r : Reading) (w : String) : Except Halt Reading :=
  match r.waiting with
  | some ⟨p, none⟩ => .ok { r with waiting := some ⟨p, some w⟩ }
  | _ => .error (.error .unknownWord)

/-- After two dashes alone no word is expected. -/
def Reading.words (r : Reading) : List String → Except Halt Reading
  | [] => r.settle
  | w :: rest =>
    match w.toList with
    | ['-', '-'] => if rest.isEmpty then r.settle else .error (.error .unknownWord)
    | '-' :: '-' :: cs => do
      let r ← r.long cs
      r.words rest
    | '-' :: c :: cs => do
      let r ← r.short (c :: cs)
      r.words rest
    | _ => do
      let r ← r.bare w
      r.words rest

def ofWords (words : List String) : Except Halt Arguments :=
  (Reading.start.words words).map (·.arguments)

/-! ## The profile -/

/-- The built-in profile with its settings loaded, and the numbers of the command line. -/
def profile (a : Arguments) (s : Surroundings) : Except SettingsError LoadProfile := do
  let p := if a.burst then LoadProfile.burst else LoadProfile.normal
  let settings ← p.settings.load s a.config
  return { p with settings := settings, clients := a.clients.getD p.clients
                  requests := a.requests.getD p.requests }

end Arguments

end DealDesk
