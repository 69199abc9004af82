import CheckHarness.Task.Basic

namespace CheckHarness

/-- A task that is put together step by step. A draft holds what was set last; the chain id is made
from its parts when the draft is finished, and the result is checked like any other request. -/
structure TaskDraft where
  taskId : UInt64
  method : Method
  address : String
  team : Team
  service : UInt64
  currentRound : UInt64
  relatedRound : UInt64
  flag : Option String
  variant : UInt64
  timeoutMs : UInt64
  roundLengthMs : UInt64
  deriving DecidableEq, Repr

namespace TaskDraft

/-- A draft with every number zero, no flag, ten seconds to run and rounds of a minute. -/
def new (method : Method) (address : String) : TaskDraft where
  taskId := 0
  method := method
  address := address
  team := ⟨0, ""⟩
  service := 0
  currentRound := 0
  relatedRound := 0
  flag := none
  variant := 0
  timeoutMs := 10000
  roundLengthMs := 60000

/-- The whole milliseconds of a span, modulo 2^64. -/
def wrappedMilliseconds (d : Duration) : UInt64 :=
  UInt64.ofNat d.milliseconds

/-- One thing that can be said about a draft. -/
inductive Change where
  | taskId (id : UInt64)
  | team (id : UInt64) (name : String)
  | service (id : UInt64)
  | rounds (current related : UInt64)
  | flag (flag : String)
  | variant (id : UInt64)
  | timeout (timeout : Duration)
  | roundLength (roundLength : Duration)
  deriving DecidableEq, Repr

/-- The draft with a change; what was said about the same thing before is forgotten. -/
def change (draft : TaskDraft) : Change → TaskDraft
  | .taskId id => { draft with taskId := id }
  | .team id name => { draft with team := ⟨id, name⟩ }
  | .service id => { draft with service := id }
  | .rounds current related => { draft with currentRound := current, relatedRound := related }
  | .flag flag => { draft with flag := some flag }
  | .variant id => { draft with variant := id }
  | .timeout timeout => { draft with timeoutMs := wrappedMilliseconds timeout }
  | .roundLength roundLength => { draft with roundLengthMs := wrappedMilliseconds roundLength }

/-- The draft after several changes in their order. -/
def changeAll (draft : TaskDraft) (changes : List Change) : TaskDraft :=
  changes.foldl change draft

/-- The chain that the draft's numbers name. -/
def chain (draft : TaskDraft) : ChainId :=
  ⟨draft.method.chainKind, draft.service, draft.relatedRound, draft.team.id, draft.variant⟩

def toRequest (draft : TaskDraft) : TaskRequest where
  taskId := some draft.taskId
  method := some draft.method
  address := some draft.address
  teamId := some draft.team.id
  teamName := some draft.team.name
  currentRoundId := some draft.currentRound
  relatedRoundId := some draft.relatedRound
  flag := draft.flag
  variantId := some draft.variant
  timeout := some draft.timeoutMs
  roundLength := some draft.roundLengthMs
  taskChainId := some draft.chain.render

/-- The finished task. -/
def finish (draft : TaskDraft) : Except Fault Task :=
  Task.ofRequest draft.toRequest

end TaskDraft

end CheckHarness
