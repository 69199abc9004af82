import CheckHarness.Text.Numeral

namespace CheckHarness

/-- The ways in which checking a service can go wrong. `offline` and `mumble` are verdicts about the
service and reach the scheduler; every other fault is a defect of the checker, of the configuration
or of the network, and only its kind may leave the program. -/
inductive Fault where
  /-- The service could not be reached, or stopped answering. -/
  | offline (message : String)
  /-- The service answered, but not as it should. -/
  | mumble (message : String)
  | configuration (component message : String)
  | validation (field message : String)
  | checkerNotFound (name available : String)
  | network (message : String)
  /-- An HTTP exchange of the client failed. -/
  | http (detail : String)
  /-- A text that had to be JSON of a certain shape was not. -/
  | json (detail : String)
  /-- An operation on a file or a socket failed. -/
  | io (detail : String)
  | internal (message : String)
  deriving DecidableEq, Repr, Inhabited

namespace Fault

/-- The text that a log entry shows for a fault. -/
def display : Fault → String
  | .offline message => "Service offline: " ++ message
  | .mumble message => "Service mumble: " ++ message
  | .configuration component message => "Configuration error in " ++ component ++ ": " ++ message
  | .validation field message => "Validation error for " ++ field ++ ": " ++ message
  | .checkerNotFound name available =>
    "Checker not found: " ++ name ++ " (available: " ++ available ++ ")"
  | .network message => "Network error: " ++ message
  | .http detail => "HTTP client error: " ++ detail
  | .json detail => "JSON error: " ++ detail
  | .io detail => "IO error: " ++ detail
  | .internal message => "Internal error: " ++ message

def isOffline : Fault → Bool
  | .offline _ => true
  | _ => false

def isMumble : Fault → Bool
  | .mumble _ => true
  | _ => false

/-- Whether a fault speaks about the service, so that its message may reach the scoreboard. -/
def isSignal (fault : Fault) : Bool :=
  fault.isOffline || fault.isMumble

/-- The first fault of a list of checks, each with whether its fault is present. -/
def first? (checks : List (Bool × Fault)) : Option Fault :=
  (checks.find? Prod.fst).map Prod.snd

/-- Passes if no check finds its fault; otherwise the first one found is reported. -/
def rejectFirst (checks : List (Bool × Fault)) : Except Fault Unit :=
  match first? checks with
  | none => .ok ()
  | some fault => .error fault

/-- A text that had to be a document was not. -/
def ofDocument (detail : String) : Fault :=
  .configuration "toml" detail

/-- A text that had to be an address was not. -/
def ofAddress (detail : String) : Fault :=
  .configuration "network_address" ("Invalid network address: " ++ detail)

/-- A text that had to be an integer was not. -/
def ofNumeral (fault : NumeralFault) : Fault :=
  .configuration "numeric_value" ("Invalid numeric value: " ++ fault.message)

/-- A spawned job that did not return: it crashed, or it was cancelled first. -/
def ofJob (crashed : Bool) : Fault :=
  .internal (if crashed then "Task panicked" else "Task was cancelled")

end Fault

end CheckHarness
