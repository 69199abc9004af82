import CheckHarness.Api.ErrorBody
import CheckHarness.Http.Message
import CheckHarness.Report
import CheckHarness.Task.Basic

namespace CheckHarness

/-- What a submitted body holds. It is turned down if it does not hold a task request, or if the
request is not a valid task; otherwise the task is executed and its report is the answer. -/
inductive Submission where
  | rejected (body : ErrorBody)
  | accepted (task : Task)
  deriving DecidableEq, Repr

namespace Submission

def malformedStart : String :=
  "Malformed task: "

def ofBody (body : Bytes) : Submission :=
  match TaskRequest.decode body with
  | .error fault => .rejected (.ofStatus 400 (malformedStart ++ fault.message))
  | .ok request =>
    match Task.ofRequest request with
    | .error fault => .rejected (.ofFault fault)
    | .ok task => .accepted task

end Submission

namespace Http.Reply

def withJson (status : UInt16) (value : Json) : Reply :=
  ⟨status, some "application/json", none, value.encode⟩

/-- The reply with an error body that is made at the given time. -/
def ofErrorBody (timestamp : String) (body : ErrorBody) : Reply :=
  withJson body.status (body.toJson timestamp)

def ofReport (report : Report) : Reply :=
  withJson 200 report.toJson

end Http.Reply

end CheckHarness
