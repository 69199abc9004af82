namespace CheckHarness.Log

inductive Severity where
  | info
  | warn
  | error
  deriving DecidableEq, Repr

namespace Severity

def name : Severity → String
  | .info => "INFO"
  | .warn => "WARN"
  | .error => "ERROR"

end Severity

/-- A log entry with its named details. A run leaves its events in their order, and one span for
each task. -/
structure Event where
  severity : Severity
  message : String
  fields : List (String × String)
  deriving DecidableEq, Repr

def info (message : String) (fields : List (String × String)) : Event :=
  ⟨.info, message, fields⟩

def warn (message : String) (fields : List (String × String)) : Event :=
  ⟨.warn, message, fields⟩

def error (message : String) (fields : List (String × String)) : Event :=
  ⟨.error, message, fields⟩

end CheckHarness.Log
