import CheckHarness.Json.Decode
import CheckHarness.Json.Printer
import CheckHarness.Task.Method

namespace CheckHarness

/-- A task as it travels. Every member may be missing, so that a missing one is named when the
request is checked and not when it is read. Times are in whole milliseconds. -/
structure TaskRequest where
  taskId : Option UInt64
  method : Option Method
  address : Option String
  teamId : Option UInt64
  teamName : Option String
  currentRoundId : Option UInt64
  relatedRoundId : Option UInt64
  flag : Option String
  variantId : Option UInt64
  timeout : Option UInt64
  roundLength : Option UInt64
  taskChainId : Option String
  deriving DecidableEq, Repr

namespace TaskRequest

/-- The members in their order; a list that stands for a request has all of them. -/
def shape : Json.Shape :=
  [("taskId", .required), ("method", .required), ("address", .required), ("teamId", .required),
    ("teamName", .required), ("currentRoundId", .required), ("relatedRoundId", .required),
    ("flag", .required), ("variantId", .required), ("timeout", .required),
    ("roundLength", .required), ("taskChainId", .required)]

def ofRecord? (record : Json.Record) : Option TaskRequest := do
  return {
    taskId := ← record.optional "taskId" Json.Node.word64?
    method := ← record.optional "method" (Json.Node.choice? Method.ofName?)
    address := ← record.optional "address" Json.Node.text?
    teamId := ← record.optional "teamId" Json.Node.word64?
    teamName := ← record.optional "teamName" Json.Node.text?
    currentRoundId := ← record.optional "currentRoundId" Json.Node.word64?
    relatedRoundId := ← record.optional "relatedRoundId" Json.Node.word64?
    flag := ← record.optional "flag" Json.Node.text?
    variantId := ← record.optional "variantId" Json.Node.word64?
    timeout := ← record.optional "timeout" Json.Node.word64?
    roundLength := ← record.optional "roundLength" Json.Node.word64?
    taskChainId := ← record.optional "taskChainId" Json.Node.text? }

/-- Reads a request from the bytes of a JSON text. -/
def decode (bytes : Bytes) : Except Json.ReadFault TaskRequest :=
  Json.read shape ofRecord? bytes

def toJson (request : TaskRequest) : Json :=
  let word := Json.ofOption fun n : UInt64 => .nat n.toNat
  let text := Json.ofOption .str
  .obj [("taskId", word request.taskId),
    ("method", Json.ofOption (fun method : Method => .str method.name) request.method),
    ("address", text request.address), ("teamId", word request.teamId),
    ("teamName", text request.teamName), ("currentRoundId", word request.currentRoundId),
    ("relatedRoundId", word request.relatedRoundId), ("flag", text request.flag),
    ("variantId", word request.variantId), ("timeout", word request.timeout),
    ("roundLength", word request.roundLength), ("taskChainId", text request.taskChainId)]

end TaskRequest

end CheckHarness
