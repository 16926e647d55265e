import DealDesk.Session

/-!
# The program

Reads the command line, the settings file and the environment, runs a session and prints how it ended.
-/

namespace DealDesk

/-- The variables that may hold settings, as far as they are set. -/
def readEnvironment : IO (List (String × String)) := do
  let names := ["WORKERS", "MAX_RETRIES", "RETRY_BASE_MS", "RETRY_MAX_MS", "RETRY_REJECTIONS"]
  let found ← names.mapM fun name => do
    let name := "DEAL_PROCESSOR_" ++ name
    return (← IO.getEnv name).map fun text => (name, text)
  return found.filterMap id

/-- The name and the text of a file, if it can be read. -/
def readFile? (name : String) : IO (Option (String × String)) := do
  try
    let text ← IO.FS.readFile name
    return some (name, text)
  catch _ => return none

/-- The files that a name may stand for, as far as they are there. -/
def readFiles (name : String) : IO (Table String String) := do
  let found ← (FileName.candidates name).mapM readFile?
  return found.filterMap id

def readSurroundings (words : List String) : IO Surroundings := do
  let files ← match Arguments.ofWords words with
    | .ok { config := some name, .. } => readFiles name
    | _ => pure []
  let folder ← IO.currentDir
  return { files := files, environment := ← readEnvironment, folder := folder.toString }

def withElapsed (elapsed : Span) : Ending → Ending
  | .finished report records =>
    .finished { report with submitElapsed := elapsed, totalElapsed := elapsed } records
  | e => e

end DealDesk

open DealDesk

def main (words : List String) : IO UInt32 := do
  let surroundings ← readSurroundings words
  let fresh := UInt64.ofNat (← IO.rand 0 (Nat.pow 2 64 - 1))
  let started ← IO.monoNanosNow
  let ending ← IO.lazyPure fun _ => Session.run surroundings words fresh
  let finished ← IO.monoNanosNow
  let ending := withElapsed (Span.ofNanos (finished - started)) ending
  for line in ending.output do IO.println line
  for line in ending.complaint do IO.eprintln line
  return ending.code
