import CheckHarness.Connection.Fill
import CheckHarness.Connection.Options
import CheckHarness.Connection.Stream
import CheckHarness.Failure
import CheckHarness.Fault
import CheckHarness.Log.Event
import CheckHarness.Time.Duration.Brief

namespace CheckHarness

/-- Why a call failed. -/
inductive CallFailure where
  | cancelled
  | timedOut
  | broken (cause : String)
  deriving DecidableEq, Repr

/-- Where a receive stands. -/
inductive ReceiveStage where
  /-- About to look at the pipe. -/
  | looking
  /-- About to take that many bytes. -/
  | taking (n : Nat)
  /-- About to wait. -/
  | parking
  /-- Waiting for the consumer's permit. -/
  | parked
  deriving DecidableEq, Repr

/-- A receive under way. -/
inductive Receiving where
  | exact (n : Nat) (taken : Bytes) (stage : ReceiveStage)
  | until (scanner : Scanner) (stage : ReceiveStage)
  deriving DecidableEq, Repr

namespace Receiving

def stage : Receiving → ReceiveStage
  | .exact _ _ stage | .until _ stage => stage

def withStage (stage : ReceiveStage) : Receiving → Receiving
  | .exact n taken _ => .exact n taken stage
  | .until scanner _ => .until scanner stage

/-- What the next step of a receive comes to. -/
inductive Progress where
  | continues (receiving : Receiving) (pipe : Pipe)
  | done (data : Bytes) (pipe : Pipe)
  | broken (cause : String)
  deriving Repr

/-- The look at the pipe that decides how a receive goes on. -/
def look (pipe : Pipe) : Receiving → Progress
  | .exact n taken _ =>
    if n ≤ taken.length then .done taken pipe
    else if !pipe.buffer.isEmpty then .continues (.exact n taken (.taking (n - taken.length))) pipe
    else if pipe.completed then .broken s!"stream ended after {taken.length} of {n} bytes"
    else .continues (.exact n taken .parking) pipe
  | .until scanner _ =>
    match scanner.scan pipe.buffer with
    | (some index, scanner) => .continues (.until scanner (.taking index)) pipe
    | (none, scanner) =>
      -- A full buffer that is completed too is told as an end.
      if pipe.completed then
        .broken (Receive.endCause pipe.buffer.length)
      else if pipe.capacity ≤ pipe.buffer.length then
        .broken (Receive.fullCause pipe.buffer.length)
      else .continues (.until scanner .parking) pipe

/-- Takes bytes that were seen in the pipe. -/
def takeBytes (pipe : Pipe) (count : Nat) : Receiving → Progress
  | .exact n taken _ =>
    .continues (.exact n (taken ++ (pipe.take count).1) .looking) (pipe.take count).2
  | .until _ _ => .done (pipe.take count).1 (pipe.take count).2

/-- The next step of a receive, if it can take one. -/
def step (pipe : Pipe) (receiving : Receiving) : Option Progress :=
  match receiving.stage with
  | .looking => some (receiving.look pipe)
  | .taking count => some (receiving.takeBytes pipe count)
  | .parking =>
    -- A permit from before lets the wait through, so no change since the look is missed.
    if pipe.readable then some (.continues (receiving.withStage .looking) pipe.pollReadable.2)
    else some (.continues (receiving.withStage .parked) pipe)
  | .parked =>
    if pipe.readable then some (.continues (receiving.withStage .looking) pipe.pollReadable.2)
    else none

end Receiving

/-- The call that a connection is busy with. -/
inductive Call where
  /-- A send with the bytes still to be written. -/
  | sending (rest : Bytes)
  | receiving (receiving : Receiving)
  | closing
  deriving DecidableEq, Repr

/-- How many bytes a call makes room for before it looks for any. -/
def Call.room : Call → Nat
  | .receiving (.exact n _ _) => n
  | _ => 0

/-- What a checker may ask of a connection. -/
inductive Command where
  | send (data : Bytes)
  | receive (receive : Receive)
  | setMessage (message : String)
  | close
  deriving DecidableEq, Repr

/-- A connection of a checker to the service it checks. A fill loop reads ahead into a pipe while
the checker sends and receives, one call at a time. Every call watches the cancellation of its task
and the time limit. The first call that fails makes the connection unusable, because it is not known
any more where in the stream it stands. -/
structure Connection where
  /-- The fill loop with the pipe and the rest of the peer's stream. -/
  source : Fill.State
  /-- The most bytes that one read asks for. -/
  chunk : Nat
  /-- Whether the connection's token is cancelled. -/
  cancelled : Bool
  call : Option Call
  /-- Everything written to the socket so far. -/
  written : Bytes
  ioTimeout : Option Duration
  /-- The message of every fault from now on. -/
  offlineMessage : String
  closed : Bool
  failed : Bool
  deriving DecidableEq, Repr

namespace Connection

/-- What becomes visible in a move: the result of the call that it ended, and log entries. -/
structure Effect where
  result : Option (Except (Failure Fault) Bytes)
  events : List Log.Event
  deriving Repr

def silent : Effect :=
  ⟨none, []⟩

def returns (result : Except (Failure Fault) Bytes) : Effect :=
  ⟨some result, []⟩

/-- Something that may happen to a connection: one step of the fill loop or of the pending call, or
something from outside. Which moves are possible depends on the state alone; in which order they
come is left open. -/
inductive Move where
  | fill (move : FillMove)
  /-- A new call, while none is pending. -/
  | start (command : Command)
  /-- The next step of the pending call. -/
  | advance
  /-- The socket accepts that many bytes of a send. -/
  | accept (n : Nat)
  /-- Writing fails. -/
  | writeError (cause : String)
  /-- The pending call notices the cancellation. -/
  | notice
  /-- The pending call runs into the time limit. -/
  | expire
  /-- The caller drops the pending call. -/
  | abandon
  /-- The task is cancelled. -/
  | cancelTask
  deriving DecidableEq, Repr

/-- The message of a connection's faults until another one is set. -/
def standardMessage : String :=
  "Connection error"

/-- A connection that was just made to a peer with the given stream. -/
def fresh (options : ConnectOptions) (pipe : Pipe) (stream : Bytes) : Connection where
  source := ⟨.starting, pipe, stream⟩
  chunk := options.chunk
  cancelled := false
  call := none
  written := []
  ioTimeout := options.ioTimeout
  offlineMessage := standardMessage
  closed := false
  failed := false

/-- Whether the connection still takes calls. -/
def usable (connection : Connection) : Bool :=
  !connection.closed && !connection.failed

def offline (connection : Connection) : Except (Failure Fault) Bytes :=
  .error (.fault (.offline connection.offlineMessage))

/-- The name in the log of a receive up to a delimiter. -/
def untilName : String :=
  "receive_until"

/-- The name of a call in the log. -/
def callName : Call → String
  | .sending _ => "send"
  | .receiving (.exact _ _ _) => "receive_exact"
  | .receiving (.until _ _) => untilName
  | .closing => "close"

/-- The limit as the log shows it. -/
def limitText : Option Duration → String
  | none => "None"
  | some limit => "Some(" ++ limit.brief ++ ")"

/-- The log entry of a call that ran into its time limit. -/
def timeoutEvent (name : String) (limit : Option Duration) : Log.Event :=
  Log.warn "Operation timed out" [("op", name), ("timeout", limitText limit)]

/-- The log entry of a call that broke. -/
def brokenEvent (name cause : String) : Log.Event :=
  Log.warn "Connection failure" [("op", name), ("cause", cause)]

/-- The log entries of a failed call; a cancelled one leaves none. -/
def failureEvents (connection : Connection) (call : Call) : CallFailure → List Log.Event
  | .cancelled => []
  | .timedOut => [timeoutEvent (callName call) connection.ioTimeout]
  | .broken cause => [brokenEvent (callName call) cause]

/-- Ends the pending call with a failure. The connection becomes unusable and its token is
cancelled, which stops the fill loop. -/
def fail (connection : Connection) (call : Call) (failure : CallFailure) : Connection × Effect :=
  ({ connection with failed := true, cancelled := true, call := none },
    ⟨some connection.offline, connection.failureEvents call failure⟩)

/-- Begins a call that watches the cancellation. One that there is no room for crashes and leaves
the connection as it was, as usable as before. -/
def begin (connection : Connection) (call : Call) : Connection × Effect :=
  if !connection.usable then (connection, returns connection.offline)
  else if connection.cancelled then connection.fail call .cancelled
  else if Bytes.roomBound ≤ call.room then (connection, returns (.error .crash))
  else ({ connection with call := some call }, silent)

/-- The fault of a receive that names no delimiter. -/
def emptyDelimiter : Fault :=
  .internal "receive_until called with an empty delimiter"

def start (connection : Connection) : Command → Connection × Effect
  | .send data => connection.begin (.sending data)
  | .receive (.exact n) => connection.begin (.receiving (.exact n [] .looking))
  | .receive (.until delimiter) =>
    match Scanner.ofDelimiter? delimiter with
    | none => (connection, returns (.error (.fault emptyDelimiter)))
    | some scanner => connection.begin (.receiving (.until scanner .looking))
  | .setMessage message => ({ connection with offlineMessage := message }, returns (.ok []))
  | .close =>
    if connection.closed then (connection, returns (.ok []))
    else ({ connection with closed := true, cancelled := true, call := some .closing }, silent)

/-- The next step of a pending call, if it can take one. -/
def advance (connection : Connection) : Call → Option (Connection × Effect)
  | .sending rest =>
    if rest = [] then some ({ connection with call := none }, returns (.ok [])) else none
  | .receiving receiving =>
    -- While it waits, a receive looks at the cancellation before it takes a permit.
    if receiving.stage = .parked ∧ connection.cancelled then none
    else
      match receiving.step connection.source.pipe with
      | none => none
      | some (.continues receiving pipe) =>
        some ({ connection with
          source := { connection.source with pipe }, call := some (.receiving receiving) }, silent)
      | some (.done data pipe) =>
        some ({ connection with source := { connection.source with pipe }, call := none },
          returns (.ok data))
      | some (.broken cause) => some (connection.fail (.receiving receiving) (.broken cause))
  | .closing =>
    -- A fill loop that has crashed leaves it to the close to complete the pipe.
    if connection.source.fill.stopped then
      some ({ connection with
        source := { connection.source with pipe := connection.source.pipe.complete }
        call := none }, returns (.ok []))
    else none

/-- Whether a pending call waits for something from outside. -/
def waits (connection : Connection) : Call → Bool
  | .sending rest => !rest.isEmpty
  | .receiving receiving => receiving.stage = .parked && !connection.source.pipe.readable
  | .closing => false

/-- Whether a pending call looks for its cancellation now. -/
def watches : Call → Bool
  | .sending rest => !rest.isEmpty
  | .receiving receiving => receiving.stage = .parked
  | .closing => false

/-- Whether a pending call rests, so that its caller may drop it. -/
def rests : Call → Bool
  | .closing => true
  | call => watches call

/-- The log entries of a move of the fill loop. -/
def fillEvents : FillMove → List Log.Event
  | .readError => [Log.warn "Socket read failed" []]
  | _ => []

/-- The connection after a move, if the move is possible. -/
def step (connection : Connection) : Move → Option (Connection × Effect)
  | .fill move =>
    (Fill.step connection.chunk connection.cancelled connection.source move).map fun source =>
      ({ connection with source }, ⟨none, fillEvents move⟩)
  | .start command => if connection.call.isNone then some (connection.start command) else none
  | .advance => connection.call.bind connection.advance
  | .accept n =>
    match connection.call with
    | some (.sending rest) =>
      if 0 < n ∧ n ≤ rest.length then
        some ({ connection with
          written := connection.written ++ rest.take n, call := some (.sending (rest.drop n)) }, silent)
      else none
    | _ => none
  | .writeError cause =>
    match connection.call with
    | some (.sending (byte :: rest)) =>
      some (connection.fail (.sending (byte :: rest)) (.broken cause))
    | _ => none
  | .notice =>
    match connection.call with
    | some call =>
      if connection.cancelled && watches call then some (connection.fail call .cancelled) else none
    | none => none
  | .expire =>
    match connection.call with
    | some call =>
      -- The limit is looked at last: whatever else could end the wait comes before it.
      if connection.ioTimeout.isSome && !connection.cancelled && connection.waits call then
        some (connection.fail call .timedOut)
      else none
    | none => none
  | .abandon =>
    if connection.call.any rests then some ({ connection with call := none }, silent) else none
  | .cancelTask => some ({ connection with cancelled := true }, silent)

/-- The connection after several moves, with all their effects, if all are possible. -/
def run (connection : Connection) : List Move → Option (Connection × List Effect)
  | [] => some (connection, [])
  | move :: moves => do
    let (connection, effect) ← connection.step move
    let (connection, effects) ← connection.run moves
    return (connection, effect :: effects)

/-- How an attempt to connect goes. -/
inductive Attempt where
  /-- The peer accepts; its stream will be these bytes. -/
  | accepted (stream : Bytes)
  | refused
  /-- The peer does not answer within the limit. -/
  | timedOut
  /-- The task is cancelled first. -/
  | cancelled
  deriving DecidableEq, Repr

/-- The log entry of an attempt that was refused. -/
def refusedEvent : Log.Event :=
  Log.warn "TCP connect failed" []

/-- The log entry of an attempt without an answer. -/
def unansweredEvent (options : ConnectOptions) : Log.Event :=
  Log.warn "TCP connect timed out" [("timeout", options.connectTimeout.brief)]

/-- The log entries of an attempt. -/
def attemptEvents (options : ConnectOptions) : Attempt → List Log.Event
  | .refused => [refusedEvent]
  | .timedOut => [unansweredEvent options]
  | _ => []

/-- The fault of an attempt that made no connection. -/
def unreachable (options : ConnectOptions) : Fault :=
  .offline options.connectError

/-- The connection that an attempt makes. Every failure has the same message. Where there is no room
for the pipe, the caller crashes although the peer has accepted. -/
def connect (options : ConnectOptions) : Attempt → Except (Failure Fault) Connection
  | .accepted stream =>
    match Pipe.ofCapacity? options.capacity with
    | some pipe => .ok (fresh options pipe stream)
    | none => .error .crash
  | _ => .error (.fault (unreachable options))

end Connection

end CheckHarness
