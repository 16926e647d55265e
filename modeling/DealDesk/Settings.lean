import DealDesk.Retry

/-!
# Settings of a desk

* `Settings` — number of workers and the retry rule, in whole milliseconds.
* `Settings.check` — at least one worker, and a base delay within the cap.
* `Unread` — why no settings file is read under a name.
* `SettingsError` — why settings were not loaded or not accepted.
-/

namespace DealDesk

structure Settings where
  workers : UInt64
  maxRetries : UInt32
  retryBaseMs : UInt64
  retryMaxMs : UInt64
  retryRejections : Bool
  deriving DecidableEq, Repr

inductive Unread
  | absent (name : String)
  /-- The file is there, but the end of its name stands for no format. -/
  | unregistered (path : String)
  /-- The file is in a format other than TOML; how such a file is read is left out. -/
  | otherFormat (path : String)
  deriving DecidableEq, Repr

def Unread.message : Unread → String
  | .absent name => "configuration file \"" ++ name ++ "\" not found"
  | .unregistered path => "configuration file \"" ++ path ++ "\" is not of a registered file format"
  | .otherFormat path => "configuration file \"" ++ path ++ "\" is not in TOML"

inductive SettingsError
  | noWorkers
  | baseAboveCap (base cap : UInt64)
  /-- A setting has a value of the wrong kind; the text says which. -/
  | wrongType (text : String)
  /-- The settings file is not well formed. -/
  | malformedFile
  | missingFile (why : Unread)
  | aboveMaximum (value maximum : Nat)
  deriving DecidableEq, Repr

/-- What went wrong, without saying that it went wrong; a malformed file is not described. -/
def SettingsError.detail : SettingsError → String
  | .noWorkers => "workers must be at least 1"
  | .baseAboveCap base cap =>
    "retry_base_ms (" ++ toString base.toNat ++ ") exceeds retry_max_ms ("
      ++ toString cap.toNat ++ ")"
  | .wrongType text => text
  | .malformedFile => "malformed file"
  | .missingFile why => why.message
  | .aboveMaximum value maximum =>
    "value " ++ toString value ++ " is greater than the max " ++ toString maximum

/-- Were the settings read, and only then found unfit? -/
def SettingsError.isInvalid : SettingsError → Bool
  | .noWorkers | .baseAboveCap .. => true
  | _ => false

def SettingsError.message (e : SettingsError) : String :=
  if e.isInvalid then "Invalid configuration: " ++ e.detail
  else "Failed to load configuration: " ++ e.detail

namespace Settings

def standard : Settings :=
  { workers := 4, maxRetries := 3, retryBaseMs := 100, retryMaxMs := 10000
    retryRejections := false }

/-- Standard settings but for these. The milliseconds of the base are kept in 64 bits: of a longer
span the remainder modulo `2 ^ 64` is left. -/
def make (workers : UInt64) (maxRetries : UInt32) (base : Span) : Settings :=
  { standard with workers := workers, maxRetries := maxRetries
                  retryBaseMs := UInt64.ofNat base.millis }

def check (s : Settings) : Except SettingsError Unit :=
  if s.workers = 0 then .error .noWorkers
  else if s.retryMaxMs < s.retryBaseMs then .error (.baseAboveCap s.retryBaseMs s.retryMaxMs)
  else .ok ()

def retryRule (s : Settings) : RetryRule :=
  { maxRetries := s.maxRetries
    base := Span.ofMillis s.retryBaseMs.toNat
    cap := Span.ofMillis s.retryMaxMs.toNat
    retryRejections := s.retryRejections }

end Settings

end DealDesk
