import CheckHarness.Checker
import CheckHarness.Connection
import CheckHarness.LineStore.Protocol

namespace CheckHarness.LineStore

/-- What the service does with a connection. -/
inductive Peer where
  | refuses
  /-- Does not accept the connection, nor refuse it. -/
  | ignores
  /-- Answers the request with these bytes, and ends its stream or not. -/
  | answers (data : Bytes) (ends : Bool)
  deriving DecidableEq, Repr

/-- Waits as long as a call may take. -/
def waitFor (limit : Option Duration) (next : Operation) : Operation :=
  match limit with
  | some limit => .sleep limit.milliseconds next
  | none => .awaitCancellation next

/-- Goes on after a receive that failed with the given log entry. -/
def failReceive (event : Log.Event) (next : Except Fault Bytes → Operation) : Operation :=
  .log event (next (.error (.offline Connection.standardMessage)))

/-- Goes on after a receive to which nothing comes until its time limit. -/
def awaitLine (options : ConnectOptions) (next : Except Fault Bytes → Operation) : Operation :=
  waitFor options.ioTimeout
    (failReceive (Connection.timeoutEvent Connection.untilName options.ioTimeout) next)

/-- Receives a line of the peer's stream and goes on with it. A stream that neither holds a line nor
ends keeps the operation waiting for the time limit, and so does any stream if there is no room for
what is read of it at a time. -/
def receiveLine (options : ConnectOptions) (data : Bytes) (ends : Bool)
    (next : Except Fault Bytes → Operation) : Operation :=
  if Bytes.roomBound ≤ options.chunk then awaitLine options next
  else
    match (Receive.until [0x0A]).fromStream? options.capacity data with
    | some (line, _) => next (.ok line)
    | none =>
      if options.capacity ≤ data.length then
        failReceive (Connection.brokenEvent Connection.untilName (Receive.fullCause options.capacity))
          next
      else if ends then
        failReceive (Connection.brokenEvent Connection.untilName (Receive.endCause data.length)) next
      else awaitLine options next

/-- What is known of a crash for want of room. -/
def noRoom : CrashPayload :=
  .text "capacity overflow"

/-- One exchange with the service. -/
def converse (options : ConnectOptions) (next : Except Fault Bytes → Operation) :
    Peer → Operation
  | .refuses => .log Connection.refusedEvent (next (.error (Connection.unreachable options)))
  | .ignores =>
    .sleep options.connectTimeout.milliseconds
      (.log (Connection.unansweredEvent options) (next (.error (Connection.unreachable options))))
  | .answers data ends =>
    if Bytes.roomBound ≤ options.capacity then .crash noRoom
    else receiveLine options data ends next

/-- The operation for a task: nothing is sent for a task that lacks what it needs. -/
def operation (options : ConnectOptions) (peer : Peer) (task : Task) : Operation :=
  match exchange task with
  | .error fault => .finish (.error fault)
  | .ok exchange => converse options (fun received => .finish (exchange.conclude received)) peer

def info : ServiceInfo :=
  ⟨"LineStore", 1, 1, 1⟩

/-- The checker for the store that listens on the given port. Each task makes one connection, sends
one line, waits for one line and closes the connection. `network` says what the service at an
address does with a connection that sends it the given bytes. -/
def checker (options : ConnectOptions) (port : UInt16) (network : String → UInt16 → Bytes → Peer) :
    Checker where
  info := info
  operation _ task :=
    operation options (network task.address port
      (match exchange task with
        | .ok exchange => exchange.request.line
        | .error _ => [])) task

end CheckHarness.LineStore
