import DealDesk.CommandLine
import DealDesk.Random.Seeded
import DealDesk.Record.Forms
import DealDesk.Summary
import DealDesk.Text.Pieces

/-!
# A session at the demo desk

* `Session.run` — one run of the program: read the command line, load the settings, connect to the
  paper broker, look at the market, run the load profile.
* `Ending` — how a run ends, with the lines it prints, the lines of its complaint and its exit code.
-/

namespace DealDesk

open DealDesk.Random

inductive Ending
  /-- The command line did not lead to a run. -/
  | halted (h : Halt)
  | failed (message : String) (cause : Option String)
  /-- `records` asks for the settlements after the summary. -/
  | finished (report : RunReport) (records : Bool)

namespace Session

/-! ## Texts -/

def title : String := "demo-runner 0.1.0"

def usage : String := "Usage: demo-runner [OPTIONS]"

def optionRows : List (String × String) :=
  [("      --burst", "Run the burst scenario (10 clients x 20 requests, minimal pacing)"),
    ("      --config <CONFIG>", "TOML file overriding the scenario's processor settings. "
      ++ "`DEAL_PROCESSOR_*` environment variables override the file"),
    ("      --failure-rate <FAILURE_RATE>", "Probability that the paper broker drops an execution "
      ++ "with a connection timeout [default: 0.05]"),
    ("      --clients <CLIENTS>", "Number of client threads (overrides the scenario)"),
    ("      --requests <REQUESTS>", "Requests per client (overrides the scenario)"),
    ("      --seed <SEED>", "Seed for the broker and the clients, for reproducible runs"),
    ("      --json", "Print every recorded result as a JSON line after the summary"),
    ("      --server <SERVER>", "Trade server address [default: paper.demo]"),
    ("      --login <LOGIN>", "Manager account login [default: 12345]"),
    ("  -h, --help", "Print help"),
    ("  -V, --version", "Print version")]

def helpLines : List String :=
  [usage, "", "Options:"] ++ optionRows.map fun (name, text) => Summary.column 37 name ++ text

/-- A settlement as one line. -/
def recordLine (s : Settlement) : String := (Settlement.form.encode floatJson s).toText

/-! ## Running -/

/-- A quote of every symbol. -/
def lookAtMarket {ρ : Type} [Source ρ] (p : Paper ρ) : Paper ρ :=
  p.symbolNames.foldl (fun p symbol => (p.quote symbol).2) p

/-- The broker of a run, in which the clients are seeded likewise. -/
def paper (a : Arguments) (seed : UInt64) : Paper Seeded :=
  (Paper.standard (Seeded.ofSeed seed)).withFailureRate a.failureRate

/-- Runs a profile at a broker to which a connection is open. Names are drawn apart from choices. -/
def trade (p : LoadProfile) (broker : Paper Seeded) (seed fresh : UInt64) :
    Except SettingsError ProfileRun :=
  p.run Paper.broker (lookAtMarket broker)
    (fun n => Seeded.ofSeed (LoadProfile.clientSeed seed n))
    (fun n => Seeded.ofSeed (LoadProfile.clientSeed (~~~fresh) n))

def settingsFailure (e : SettingsError) : Ending :=
  .failed e.message (if e.isInvalid then none else some e.detail)

/-- `fresh` is a number that no run had before; it is the seed of a run without one. -/
def run (s : Surroundings) (words : List String) (fresh : UInt64) : Ending :=
  match Arguments.ofWords words with
  | .error h => .halted h
  | .ok a =>
    match a.profile s with
    | .error e => settingsFailure e
    | .ok p =>
      let seed := a.seed.getD fresh
      let called := (paper a seed).connect a.server a.login
      match called.reply with
      | .error e => .failed "Failed to connect to trade server" (some e.message)
      | .ok () =>
        match trade p called.state seed fresh with
        | .error e => settingsFailure e
        | .ok done => .finished done.report a.json

end Session

namespace Ending

/-- What a run prints. -/
def output : Ending → List String
  | .halted .help => Session.helpLines
  | .halted .version => [Session.title]
  | .halted (.error _) | .failed .. => []
  | .finished report records =>
    Summary.timingLines report ++ Summary.summaryLines report.register
      ++ if records then report.register.all.map Session.recordLine else []

/-- What a run complains of. Every line of a cause is indented. -/
def complaint : Ending → List String
  | .halted (.error e) => ["error: " ++ e.message, "", Session.usage]
  | .halted _ | .finished .. => []
  | .failed message cause =>
    Text.pieces '\n' ("Error: " ++ message) ++
      match cause with
      | none => []
      | some cause => ["", "Caused by:"] ++ (Text.pieces '\n' cause).map ("    " ++ ·)

def code : Ending → UInt32
  | .halted (.error _) => 2
  | .failed .. => 1
  | .halted _ | .finished .. => 0

end Ending

end DealDesk
