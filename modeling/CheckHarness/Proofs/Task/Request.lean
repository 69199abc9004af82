import CheckHarness.Task.Request
import CheckHarness.Proofs.Json.Record

namespace CheckHarness

theorem Method.ofName?_name (method : Method) : ofName? method.name = some method := by
  cases method <;> decide

namespace TaskRequest

open Json (IsText IsNatural)

/-- The members of an object that carries a request. -/
def fields (request : TaskRequest) : List Json.Field :=
  let word name (value : Option UInt64) := .optional name (fun n => IsNatural n.toNat) value
  let text name value := .optional name IsText value
  [word "taskId" request.taskId,
    .optional "method" (fun method : Method => IsText method.name) request.method,
    text "address" request.address, word "teamId" request.teamId,
    text "teamName" request.teamName, word "currentRoundId" request.currentRoundId,
    word "relatedRoundId" request.relatedRoundId, text "flag" request.flag,
    word "variantId" request.variantId, word "timeout" request.timeout,
    word "roundLength" request.roundLength, text "taskChainId" request.taskChainId]

theorem map_name_fields (request : TaskRequest) :
    request.fields.map Json.Field.name = shape.map Prod.fst :=
  rfl

variable {request : TaskRequest}

/-- A request is read from a record that carries its members. -/
theorem ofRecord?_known {record : Json.Record} (hcarries : record.Carries request.fields) :
    ofRecord? (Json.Record.known shape record) = some request := by
  have hword : ∀ name (value : Option UInt64),
      .optional name (fun n => IsNatural n.toNat) value ∈ request.fields →
        (Json.Record.known shape record).optional name Json.Node.word64? = some value :=
    fun _ _ => hcarries.optional request.map_name_fields Json.reads_word64
  have htext : ∀ name value, .optional name IsText value ∈ request.fields →
      (Json.Record.known shape record).optional name Json.Node.text? = some value :=
    fun _ _ => hcarries.optional request.map_name_fields Json.reads_text
  have hmethod : (Json.Record.known shape record).optional "method"
      (Json.Node.choice? Method.ofName?) = some request.method :=
    hcarries.optional request.map_name_fields (Json.reads_choice Method.ofName?_name)
      (by simp [fields])
  rw [ofRecord?, hword "taskId" request.taskId (by simp [fields]), hmethod,
    htext "address" request.address (by simp [fields]),
    hword "teamId" request.teamId (by simp [fields]),
    htext "teamName" request.teamName (by simp [fields]),
    hword "currentRoundId" request.currentRoundId (by simp [fields]),
    hword "relatedRoundId" request.relatedRoundId (by simp [fields]),
    htext "flag" request.flag (by simp [fields]),
    hword "variantId" request.variantId (by simp [fields]),
    hword "timeout" request.timeout (by simp [fields]),
    hword "roundLength" request.roundLength (by simp [fields]),
    htext "taskChainId" request.taskChainId (by simp [fields])]
  rfl

/-- A request is read however it is written. -/
theorem decode_of_writesRecord {text : Bytes} (hwrites : Json.WritesRecord request.fields text) :
    decode text = .ok request :=
  hwrites.read_eq request.map_name_fields fun _ => ofRecord?_known

/-- The printed text of a request carries its members. -/
theorem writesRecord_encode (request : TaskRequest) :
    Json.WritesRecord request.fields request.toJson.encode := by
  have htext : ∀ name value,
      (Json.Field.optional name IsText value).carriedBy (Json.ofOption .str value).node :=
    fun _ => Json.Field.carriedBy_optional Json.isText_node
  have hword : ∀ name (value : Option UInt64),
      (Json.Field.optional name (fun n => IsNatural n.toNat) value).carriedBy
        (Json.ofOption (fun n => .nat n.toNat) value).node :=
    fun _ => Json.Field.carriedBy_optional fun n => Json.isNatural_node n.toNat
  have hmethod : ∀ value : Option Method,
      (Json.Field.optional "method" (fun method => IsText method.name) value).carriedBy
        (Json.ofOption (fun method => .str method.name) value).node :=
    Json.Field.carriedBy_optional fun method => Json.isText_node method.name
  refine Json.Prints.writesRecord_encode ?_ request.map_name_fields (by decide)
  exact .member (hword _ _) <| .member (hmethod _) <| .member (htext _ _) <| .member (hword _ _) <|
    .member (htext _ _) <| .member (hword _ _) <| .member (hword _ _) <| .member (htext _ _) <|
    .member (hword _ _) <| .member (hword _ _) <| .member (hword _ _) <| .member (htext _ _) <| .nil

/-- A printed request is read back. -/
theorem decode_encode (request : TaskRequest) : decode request.toJson.encode = .ok request :=
  decode_of_writesRecord request.writesRecord_encode

end TaskRequest

end CheckHarness
