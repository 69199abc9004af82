import CheckHarness.Cancellation
import CheckHarness.Connection
import CheckHarness.Execution

namespace CheckHarness

namespace Workload

/-- How far an execution has come. -/
inductive Stage where
  /-- The guard is about to look. -/
  | waiting (progress : Guarded.Progress)
  /-- The operation is polled since the given time. -/
  | polled (now : Nat) (progress : Guarded.Progress)
  | ended (execution : Execution)
  deriving DecidableEq, Repr

/-- The execution of a task. Times are in milliseconds since it began. -/
structure Job where
  caller : Nat
  task : Task
  token : CancellationToken
  stage : Stage
  deriving DecidableEq, Repr

namespace Job

def deadline (job : Job) : Nat :=
  job.task.timeoutMs.toNat

end Job

/-- A connection of a task. -/
structure Link where
  job : Nat
  token : CancellationToken
  /-- The connection as the last of its own moves left it. -/
  connection : Connection
  /-- Whether the task let go of the connection; one that is leaked is never let go of. -/
  dropped : Bool
  deriving DecidableEq, Repr

end Workload

/-- Tasks that are executed side by side for several callers, with the connections made under them,
as far as their cancellation goes. Every task has a token below its caller's, and every connection
one below its task's. Callers, jobs and links are known by their places in the lists. -/
structure Workload where
  /-- The tokens of the callers. -/
  callers : List CancellationToken
  jobs : List Workload.Job
  links : List Workload.Link
  /-- The tokens that were cancelled, the latest first. -/
  cancelled : List CancellationToken
  deriving DecidableEq, Repr

namespace Workload

/-- Nobody has asked for anything yet. -/
def start : Workload :=
  ⟨[], [], [], []⟩

/-- What may happen next. The guard of a task looks at the token and the deadline before each poll;
between the beginning and the end of a poll anything else may happen. -/
inductive Move where
  /-- A caller appears. -/
  | enroll
  | cancelCaller (caller : Nat)
  /-- A caller has a task executed. -/
  | execute (caller : Nat) (task : Task)
  /-- The guard of a task looks, and the operation begins to be polled unless the run ends. -/
  | look (job now : Nat)
  /-- The poll of an operation ends, and the operation may end with it. -/
  | poll (job duration : Nat) (events : List Log.Event) (ending : Option Ending)
  /-- The checker cancels its own task. -/
  | cancelTask (job : Nat)
  /-- An attempt of a task to connect to its service ends. If it crashes, so does the poll in which
  it was made, as its own move says. -/
  | connect (job : Nat) (options : ConnectOptions) (attempt : Connection.Attempt)
  /-- Something happens to one connection. -/
  | act (link : Nat) (move : Connection.Move)
  /-- A task lets go of a connection. -/
  | drop (link : Nat)
  deriving Repr

/-- Whether a token is cancelled. -/
def isCancelled (workload : Workload) (token : CancellationToken) : Bool :=
  token.isCancelled workload.cancelled

def cancel (workload : Workload) (token : CancellationToken) : Workload :=
  { workload with cancelled := token :: workload.cancelled }

/-- Cancels a token under a condition. -/
def cancelIf (workload : Workload) (condition : Bool) (token : CancellationToken) : Workload :=
  { workload with
    cancelled := if condition then token :: workload.cancelled else workload.cancelled }

def setJob (workload : Workload) (index : Nat) (job : Job) : Workload :=
  { workload with jobs := workload.jobs.set index job }

def setLink (workload : Workload) (index : Nat) (link : Link) : Workload :=
  { workload with links := workload.links.set index link }

/-- The two tokens that the guard of a job looks at. -/
def tokens (workload : Workload) (job : Job) : Tokens where
  caller := workload.callers[job.caller]?.any workload.isCancelled
  own := workload.cancelled.contains job.token

def execute (workload : Workload) (caller : Nat) (task : Task) (token : CancellationToken) :
    Workload :=
  { workload with
    jobs := workload.jobs ++ [⟨caller, task, token.child workload.jobs.length,
      .waiting (.initial ⟨workload.isCancelled token, false⟩)⟩] }

/-- The execution of a task ends, however it does, and the task's token is cancelled, so that
nothing goes on that the operation left behind. -/
def finish (workload : Workload) (index : Nat) (job : Job) (guarded : Guarded) : Workload :=
  (workload.setJob index { job with stage := .ended (.ofGuarded guarded) }).cancel job.token

/-- Goes on with a job after its guard has looked or its operation was polled. -/
def goOn (workload : Workload) (index : Nat) (job : Job) (next : Guarded.Progress → Stage) :
    Guarded ⊕ Guarded.Progress → Workload
  | .inl guarded => workload.finish index job guarded
  | .inr progress => workload.setJob index { job with stage := next progress }

/-- Adds a connection to a job. Its token is made when the peer has accepted; if the task has been
cancelled by then, it is cancelled from the beginning. -/
def link (workload : Workload) (index : Nat) (job : Job) (connection : Connection) : Workload :=
  { workload with
    links := workload.links ++ [⟨index, job.token.child workload.links.length, connection, false⟩] }

/-- The connection of a link as it is now. -/
def connection (workload : Workload) (link : Link) : Connection :=
  { link.connection with cancelled := workload.isCancelled link.token }

/-- Whether a move of a connection can be made. Once the task has let go of the connection, at most
its fill loop goes on. The cancellation of the task is not a move of the connection here: it comes
from above. -/
def allows (link : Link) : Connection.Move → Bool
  | .fill _ => true
  | .cancelTask => false
  | _ => !link.dropped

/-- The workload after a move of a connection, which may have cancelled its token. -/
def moved (workload : Workload) (index : Nat) (link : Link) (connection : Connection) : Workload :=
  (workload.setLink index { link with connection }).cancelIf connection.cancelled link.token

/-- Lets go of a connection. One that is not closed cancels its token. -/
def drop (workload : Workload) (index : Nat) (link : Link) : Workload :=
  (workload.setLink index { link with dropped := true }).cancelIf (!link.connection.closed)
    link.token

/-- The workload after a move, if the move is possible. -/
def step (workload : Workload) : Move → Option Workload
  | .enroll =>
    some { workload with callers := workload.callers ++ [.root workload.callers.length] }
  | .cancelCaller caller => workload.callers[caller]?.map workload.cancel
  | .execute caller task => workload.callers[caller]?.map (workload.execute caller task)
  | .look index now =>
    workload.jobs[index]?.bind fun job =>
      match job.stage with
      | .waiting progress =>
        some (workload.goOn index job (.polled now)
          (progress.look job.deadline now (workload.tokens job)))
      | _ => none
  | .poll index duration events ending =>
    workload.jobs[index]?.bind fun job =>
      match job.stage with
      | .polled now progress =>
        some (workload.goOn index job .waiting
          (progress.poll now ⟨workload.tokens job, duration, events, ending⟩))
      | _ => none
  | .cancelTask index => workload.jobs[index]?.map fun job => workload.cancel job.token
  | .connect index options attempt =>
    workload.jobs[index]?.map fun job =>
      match Connection.connect options attempt with
      | .ok connection => workload.link index job connection
      | .error _ => workload
  | .act index move =>
    workload.links[index]?.bind fun link =>
      if allows link move then
        ((workload.connection link).step move).map fun result =>
          workload.moved index link result.1
      else none
  | .drop index =>
    workload.links[index]?.bind fun link =>
      if link.dropped then none else some (workload.drop index link)

/-- The workload after several moves, if all are possible. -/
def run (workload : Workload) (moves : List Move) : Option Workload :=
  moves.foldlM step workload

end Workload

end CheckHarness
