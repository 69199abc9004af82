import CheckHarness.Task.ChainId
import CheckHarness.Task.Request
import CheckHarness.Text.Blank
import CheckHarness.Time.Duration

namespace CheckHarness

structure Team where
  id : UInt64
  name : String
  deriving DecidableEq, Repr

/-- A complete and consistent task: the rounds are in order, a flag is there where one is needed,
and the chain id agrees with the method, the round and the team. -/
structure Task where
  id : UInt64
  method : Method
  address : String
  team : Team
  currentRound : UInt64
  relatedRound : UInt64
  flag : Option String
  variant : UInt64
  /-- The time the operation may take, in milliseconds. -/
  timeoutMs : UInt64
  roundLengthMs : UInt64
  chain : ChainId
  deriving DecidableEq, Repr

namespace Task

def timeout (task : Task) : Duration :=
  .ofMilliseconds task.timeoutMs

def roundLength (task : Task) : Duration :=
  .ofMilliseconds task.roundLengthMs

/-- A member that has to be there. -/
def require (field : String) : Option α → Except Fault α
  | some value => .ok value
  | none => .error (.validation field "missing required field")

/-- A request that lacks nothing, not yet checked for consistency. -/
def complete (request : TaskRequest) : Except Fault Task := do
  let id ← require "taskId" request.taskId
  let method ← require "method" request.method
  let address ← require "address" request.address
  let teamId ← require "teamId" request.teamId
  let teamName ← require "teamName" request.teamName
  let currentRound ← require "currentRoundId" request.currentRoundId
  let relatedRound ← require "relatedRoundId" request.relatedRoundId
  let variant ← require "variantId" request.variantId
  let timeoutMs ← require "timeout" request.timeout
  let roundLengthMs ← require "roundLength" request.roundLength
  let chain ← ChainId.parse (← require "taskChainId" request.taskChainId)
  return {
    id, method, address, team := ⟨teamId, teamName⟩, currentRound, relatedRound
    flag := request.flag, variant, timeoutMs, roundLengthMs, chain }

/-- Whether a flag that the method needs is missing or empty. -/
def lacksFlag (task : Task) : Bool :=
  task.method.requiresFlag && task.flag.getD "" == ""

/-- The conflicts a task may hold, in the order in which they are reported. -/
def conflicts (task : Task) : List (Bool × Fault) :=
  [(Text.isBlankText task.address, .validation "address" "must not be empty"),
    (task.currentRound < task.relatedRound,
      .validation "relatedRoundId" s!"related round {task.relatedRound.toNat} is after current round {task.currentRound.toNat}"),
    (task.lacksFlag, .validation "flag" s!"required for {task.method.name}"),
    (task.timeoutMs == 0, .validation "timeout" "must be positive"),
    (task.chain.kind != task.method.chainKind,
      .validation "taskChainId" s!"kind '{task.chain.kind.name}' does not match method {task.method.name}"),
    (task.chain.round != task.relatedRound,
      .validation "taskChainId" s!"round {task.chain.round.toNat} does not match relatedRoundId {task.relatedRound.toNat}"),
    (task.chain.team != task.team.id,
      .validation "taskChainId" s!"team {task.chain.team.toNat} does not match teamId {task.team.id.toNat}")]

/-- The task that a request describes, if it is complete and consistent. This is the only check; its
faults come in a fixed order. -/
def ofRequest (request : TaskRequest) : Except Fault Task := do
  let task ← complete request
  Fault.rejectFirst task.conflicts
  return task

/-- The request that describes a task. -/
def toRequest (task : Task) : TaskRequest where
  taskId := some task.id
  method := some task.method
  address := some task.address
  teamId := some task.team.id
  teamName := some task.team.name
  currentRoundId := some task.currentRound
  relatedRoundId := some task.relatedRound
  flag := task.flag
  variantId := some task.variant
  timeout := some task.timeoutMs
  roundLength := some task.roundLengthMs
  taskChainId := some task.chain.render

end Task

end CheckHarness
