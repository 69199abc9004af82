import CheckHarness.Config.Environment
import CheckHarness.Log.Filter

namespace CheckHarness.Log

/-- The variable that names a filter. -/
def filterVariable : String :=
  "RUST_LOG"

/-- Whether the environment names a well-formed filter. -/
def namesFilter (environment : Environment) : Except (Failure Fault) Bool :=
  match environment filterVariable with
  | none => .ok false
  | some text =>
    match Filter.check text with
    | .ok _ => .ok true
    | .error (.fault _) => .ok false
    | .error .crash => .error .crash

/-- Checks the filter that counts, then takes the place of the process's log if it is free. The
environment may name a filter, which then counts instead of the configured one if it is well-formed.
-/
def setup (installed : Bool) (level : String) (environment : Environment) :
    Except (Failure Fault) Unit := do
  if !(← namesFilter environment) then
    Filter.require level
  if installed then
    .error (.fault (.internal "failed to install tracing subscriber: a log is installed already"))

end CheckHarness.Log
