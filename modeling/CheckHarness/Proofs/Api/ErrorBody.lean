import CheckHarness.Api.Submission
import CheckHarness.Proofs.Json.Record

namespace CheckHarness.ErrorBody

/-- The faults that no error body tells anything of. -/
inductive Withheld : Fault → Prop where
  | offline (message : String) : Withheld (.offline message)
  | mumble (message : String) : Withheld (.mumble message)
  | network (message : String) : Withheld (.network message)
  | http (detail : String) : Withheld (.http detail)
  | io (detail : String) : Withheld (.io detail)
  | internal (message : String) : Withheld (.internal message)

/-- A fault that is withheld is not told apart from others. -/
theorem Withheld.ofFault_eq {fault : Fault} (hfault : Withheld fault) :
    ofFault fault = ⟨500, "internal_error", "Internal server error", none⟩ := by
  cases hfault <;> rfl

/-- The body of a fault blames the request, misses something or tells of an internal error. -/
theorem code_ofFault (fault : Fault) :
    (ofFault fault).code = 400 ∨ (ofFault fault).code = 404 ∨ (ofFault fault).code = 500 := by
  cases fault with
  | validation | json | configuration => exact .inl rfl
  | checkerNotFound => exact .inr (.inl rfl)
  | offline | mumble | network | http | io | internal => exact .inr (.inr rfl)

theorem status_ofFault (fault : Fault) : (ofFault fault).status = (ofFault fault).code := by
  unfold status
  rcases code_ofFault fault with hcode | hcode | hcode <;> rw [hcode] <;> rfl

/-- A member is named only if the request is at fault for it. -/
theorem field_ofFault_isSome_iff (fault : Fault) :
    (ofFault fault).field.isSome = true ↔ ∃ field message, fault = .validation field message := by
  cases fault with
  | validation field message => exact ⟨fun _ => ⟨field, message, rfl⟩, fun _ => rfl⟩
  | _ => exact ⟨nofun, nofun⟩

open Json (IsText IsNatural)

/-- The values that are a text of a time. -/
def IsTime (time : Timestamp) (node : Json.Node) : Prop :=
  ∃ text, IsText text node ∧ Timestamp.ofText? text = some time

/-- A time is read from the text that was printed for it. -/
theorem reads_time :
    Json.Reads IsTime fun node => node.text?.bind Timestamp.ofText? := by
  rintro time node ⟨text, htext, htime⟩
  obtain ⟨hnull, hread⟩ := Json.reads_text text node htext
  refine ⟨hnull, ?_⟩
  beta_reduce
  rw [hread, Option.bind_some, htime]

/-- The members of an object that carries a body and its time. -/
def fields (body : ErrorBody) (time : Timestamp) : List Json.Field :=
  [.required "code" (fun n : UInt16 => IsNatural n.toNat) body.code,
    .required "error" IsText body.category, .required "message" IsText body.message,
    .optional "field" IsText body.field, .required "timestamp" IsTime time]

theorem map_name_fields (body : ErrorBody) (time : Timestamp) :
    (body.fields time).map Json.Field.name = shape.map Prod.fst :=
  rfl

variable {body : ErrorBody} {time : Timestamp} {timestamp : String}

/-- A body is read from a record that carries its members. -/
theorem ofRecord?_known {record : Json.Record} (hcarries : record.Carries (body.fields time)) :
    ofRecord? (Json.Record.known shape record) = some (body, time) := by
  have hshape := body.map_name_fields time
  have hcode : (Json.Record.known shape record).required "code" Json.Node.word16? =
      some body.code :=
    hcarries.required hshape Json.reads_word16 (by simp [fields])
  have htext : ∀ name text, .required name IsText text ∈ body.fields time →
      (Json.Record.known shape record).required name Json.Node.text? = some text :=
    fun _ _ => hcarries.required hshape Json.reads_text
  have hfield : (Json.Record.known shape record).optional "field" Json.Node.text? =
      some body.field :=
    hcarries.optional hshape Json.reads_text (by simp [fields])
  have hstamp : (Json.Record.known shape record).required "timestamp"
      (fun node => node.text?.bind Timestamp.ofText?) = some time :=
    hcarries.required hshape reads_time (by simp [fields])
  rw [ofRecord?, hcode, htext "error" body.category (by simp [fields]),
    htext "message" body.message (by simp [fields]), hfield, hstamp]
  rfl

/-- The field is the one member that is not printed if it is absent. -/
theorem writesRecord_encode (body : ErrorBody) (htime : Timestamp.ofText? timestamp = some time) :
    Json.WritesRecord (body.fields time) (body.toJson timestamp).encode := by
  refine Json.Prints.writesRecord_encode ?_ (body.map_name_fields time) (by decide)
  refine .member (Json.isNatural_node _) <| .member (Json.isText_node _) <|
    .member (Json.isText_node _) ?_
  have hstamp : Json.Prints [.required "timestamp" IsTime time] [("timestamp", .str timestamp)] :=
    .member ⟨timestamp, Json.isText_node timestamp, htime⟩ .nil
  cases body.field with
  | none => exact .omitted rfl hstamp
  | some field => exact .member (Json.isText_node field) hstamp

/-- A printed body is read back, with the time at which it was made. -/
theorem decode_encode (body : ErrorBody) (htime : Timestamp.ofText? timestamp = some time) :
    decode (body.toJson timestamp).encode = .ok (body, time) :=
  (body.writesRecord_encode htime).read_eq (body.map_name_fields time) fun _ => ofRecord?_known

end CheckHarness.ErrorBody
