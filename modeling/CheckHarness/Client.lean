import CheckHarness.Http.Message
import CheckHarness.Report
import CheckHarness.ServiceInfo
import CheckHarness.Task.Basic

namespace CheckHarness

/-- The client of a checker service. Submitting a task folds whatever happens to the exchange into a
report. A service that takes too long is offline, any other trouble is an internal error, and a
report that arrives is passed on without its NUL characters. -/
structure Client where
  /-- The address of the service, without a slash at its end. -/
  baseUrl : String
  /-- How much longer than its own timeout a task may take. -/
  grace : Duration
  deriving DecidableEq, Repr

/-- How the body of an answer arrives. -/
inductive Transfer where
  | whole (body : Bytes)
  /-- The transfer breaks off. -/
  | broken
  /-- The time limit is reached before the end. -/
  | stalled
  deriving DecidableEq, Repr

/-- How an exchange with a server goes. -/
inductive HttpExchange where
  /-- There is no connection, or it breaks before the head of an answer. -/
  | failed
  /-- The time limit is reached before the head of an answer. -/
  | stalled
  | answered (status : UInt16) (transfer : Transfer)
  deriving DecidableEq, Repr

namespace Client

def trimSlashes (url : List Char) : List Char :=
  (url.reverse.dropWhile (· = '/')).reverse

def ofUrl (url : String) (grace : Duration) : Client :=
  ⟨String.ofList (trimSlashes url.toList), grace⟩

/-- How long a submission may take, if the sum is a span of time. -/
def limit? (client : Client) (task : Task) : Option Duration :=
  task.timeout.add? client.grace

/-- The request that submits a task. -/
def submission (task : Task) : Http.Request :=
  ⟨"POST", .ofPath "/", some "application/json", task.toRequest.toJson.encode⟩

/-- The request for the description of a checker. -/
def infoRequest : Http.Request :=
  ⟨"GET", .ofPath "/service", none, []⟩

def stripNul (text : String) : String :=
  String.ofList (text.toList.filter (· != '\x00'))

/-- A report without NUL characters, which storages do not take. -/
def cleaned (report : Report) : Report :=
  { report with
    message := report.message.map stripNul
    attackInfo := report.attackInfo.map stripNul }

/-- The report that an exchange comes to. -/
def report : HttpExchange → Report
  | .failed => .internalError
  | .stalled => .offline none
  | .answered status transfer =>
    -- The body of another answer is not waited for.
    if status != 200 then .internalError
    else
      match transfer with
      | .whole body =>
        match Report.decode body with
        | .ok report => cleaned report
        | .error _ => .internalError
      | .broken => .internalError
      | .stalled => .offline none

/-- The description that an exchange comes to. -/
def serviceInfo : HttpExchange → Except Fault ServiceInfo
  | .answered status (.whole body) =>
    if 400 ≤ status && status < 600 then .error (.http "the service answered with an error status")
    else
      match ServiceInfo.decode body with
      | .ok info => info.checked
      | .error fault => .error (.http fault.message)
  | _ => .error (.http "the exchange failed")

end Client

end CheckHarness
