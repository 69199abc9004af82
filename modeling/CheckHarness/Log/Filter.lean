import CheckHarness.Fault
import CheckHarness.Log.Directive

namespace CheckHarness.Log.Filter

/-- Passes for a filter, which is a list of directives between commas; otherwise the first bad
directive decides. Empty ones do not count. -/
def check (text : String) : Except (Failure FilterFault) Unit :=
  ((text.toList.splitOn ',').filter fun piece => !piece.isEmpty).forM Directive.check

/-- Passes for a filter that may be configured. -/
def require (level : String) : Except (Failure Fault) Unit :=
  (check level).mapError (Failure.map fun fault => .configuration "logging.level" fault.message)

end CheckHarness.Log.Filter
