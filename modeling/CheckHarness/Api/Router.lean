import CheckHarness.Api.Page
import CheckHarness.Api.Submission
import CheckHarness.Checker

namespace CheckHarness.Api

/-- The most bytes that the body of a submission may have. -/
def maxBodySize : Nat :=
  2097152

def bodyTooLarge : Http.Reply :=
  .withText 413 "text/plain; charset=utf-8" "Failed to buffer the request body: length limit exceeded"

def page (info : ServiceInfo) : Http.Reply :=
  .withText 200 "text/html; charset=utf-8" (Page.render info.serviceName)

/-- What comes of a body: the answer, and the execution if there was one. -/
structure Handled where
  reply : Http.Reply
  execution : Option Execution
  deriving DecidableEq, Repr

/-- Handles a body that is not too large; `execute` runs the accepted task. -/
def handle (execute : Task → Execution) (timestamp : String) (body : Bytes) : Handled :=
  match Submission.ofBody body with
  | .rejected error => ⟨.ofErrorBody timestamp error, none⟩
  | .accepted task =>
    let execution := execute task
    ⟨.ofReport execution.report, some execution⟩

/-- The answer to a submission. -/
def submit (execute : Task → Execution) (timestamp : String) (body : Bytes) : Http.Reply :=
  if maxBodySize < body.length then bodyTooLarge else (handle execute timestamp body).reply

/-- The answer of a target that can only be read. -/
def readOnly (reply : Http.Reply) (method : String) : Option Http.Reply :=
  if method = "GET" then some reply
  else if method = "HEAD" then some reply.headOnly
  else none

/-- Answers a request: there is a start page and a place for tasks under `/`, and the description of
the checker under `/service`. Whatever can be read can also be asked for its head only. -/
def answer (info : ServiceInfo) (execute : Task → Execution) (timestamp : String)
    (request : Http.Request) : Http.Reply :=
  if request.path = "/" then
    if request.method = "POST" then submit execute timestamp request.body
    else (readOnly (page info) request.method).getD (.notAllowed ["GET", "HEAD", "POST"])
  else if request.path = "/service" then
    (readOnly (.withJson 200 info.toJson) request.method).getD (.notAllowed ["GET", "HEAD"])
  else .empty 404

/-- The answer of a service with the given checker. -/
def answerWith (checker : Checker) (timestamp : String) (request : Http.Request) : Http.Reply :=
  answer checker.info checker.perform timestamp request

end CheckHarness.Api
