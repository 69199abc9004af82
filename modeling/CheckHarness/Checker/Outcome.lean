import CheckHarness.Fault
import CheckHarness.Report

namespace CheckHarness

/-- What an operation concluded about the service. -/
inductive Outcome where
  /-- The service behaved; the information is published to attackers. -/
  | success (attackInfo : Option String)
  | mumble (message : String)
  | offline (message : String)
  deriving DecidableEq, Repr

/-- How an operation returned: with an outcome or with a fault. -/
abbrev Conclusion := Except Fault Outcome

namespace Report

/-- The report of a task. Cancellation decides first: a task that was cancelled or ran out of time
is offline without a message, whatever the operation returned. A fault about the service counts as
the matching outcome; of every other fault the report shows nothing. -/
def ofConclusion (conclusion : Conclusion) (cancelled : Bool) : Report :=
  if cancelled then offline none
  else
    match conclusion with
    | .ok (.mumble message) | .error (.mumble message) => mumble message
    | .ok (.offline message) | .error (.offline message) => offline (some message)
    | .error _ => internalError
    | .ok (.success attackInfo) => ok attackInfo

end Report

end CheckHarness
