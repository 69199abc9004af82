import CheckHarness.Client

namespace CheckHarness

/-- How the body of an answer comes in. -/
inductive BodyCourse where
  /-- Nothing comes any more. -/
  | silence
  /-- The transfer breaks off. -/
  | failure (pause : Nat)
  /-- The body is complete. -/
  | finish (pause : Nat)
  | chunk (pause : Nat) (bytes : Bytes) (rest : BodyCourse)
  deriving DecidableEq, Repr

/-- How a server behaves after a request: it does one thing after the other, each after a pause in
nanoseconds, and may stop at any point. The client follows it until the time limit, and what comes
at the limit comes too late. -/
inductive Course where
  | silence
  /-- There is no connection, or it breaks. -/
  | failure (pause : Nat)
  /-- The head of the final answer. -/
  | head (pause : Nat) (status : UInt16) (body : BodyCourse)
  deriving DecidableEq, Repr

namespace Transfer

/-- The transfer of a body that begins with the bytes. -/
def after (bytes : Bytes) : Transfer → Transfer
  | .whole body => .whole (bytes ++ body)
  | .broken => .broken
  | .stalled => .stalled

end Transfer

namespace BodyCourse

/-- What a client gets of a body in the time that is left. -/
def transfer (remaining : Nat) : BodyCourse → Transfer
  | .silence => .stalled
  | .failure pause => if pause < remaining then .broken else .stalled
  | .finish pause => if pause < remaining then .whole [] else .stalled
  | .chunk pause bytes rest =>
    if pause < remaining then (rest.transfer (remaining - pause)).after bytes else .stalled

end BodyCourse

namespace Course

/-- What a client sees of a server until the time limit. -/
def exchange (limit : Nat) : Course → HttpExchange
  | .silence => .stalled
  | .failure pause => if pause < limit then .failed else .stalled
  | .head pause status body =>
    if pause < limit then .answered status (body.transfer (limit - pause)) else .stalled

end Course

namespace Client

/-- The report that a submission comes to with a server that behaves in this way. There is none if
the time limit is not a span of time. -/
def submit (client : Client) (task : Task) (server : Http.Request → Course) : Option Report :=
  (client.limit? task).map fun limit =>
    report ((server (submission task)).exchange limit.nanoseconds)

end Client

end CheckHarness
