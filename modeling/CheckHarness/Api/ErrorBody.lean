import CheckHarness.Fault
import CheckHarness.Http.Status
import CheckHarness.Json.Decode
import CheckHarness.Json.Printer
import CheckHarness.Time.Timestamp

namespace CheckHarness

/-- The body of an answer that rejects a request. It repeats the status code, names a category and
says what is wrong; of faults that are not the sender's it says nothing. It travels with the time at
which it was made. -/
structure ErrorBody where
  code : UInt16
  category : String
  message : String
  /-- The member of the request that is at fault. -/
  field : Option String
  deriving DecidableEq, Repr

namespace ErrorBody

/-- The body for a status code, with the code's standard phrase as the category. -/
def ofStatus (code : UInt16) (message : String) : ErrorBody :=
  ⟨code, (Http.reason? code.toNat).getD "Unknown", message, none⟩

def withField (body : ErrorBody) (field : String) : ErrorBody :=
  { body with field := some field }

/-- The body that tells of a fault. -/
def ofFault (fault : Fault) : ErrorBody :=
  match fault with
  | .validation field message => ⟨400, "validation_error", message, some field⟩
  | .json detail => ⟨400, "malformed_request", detail, none⟩
  | .configuration _ _ => ⟨400, "configuration_error", fault.display, none⟩
  | .checkerNotFound _ _ => ⟨404, "not_found", fault.display, none⟩
  | _ => ⟨500, "internal_error", "Internal server error", none⟩

/-- The status of an answer with this body: its code, if this is a status at all. -/
def status (body : ErrorBody) : UInt16 :=
  if Http.isStatus body.code.toNat then body.code else 500

/-- The members of a body. The field is left out if there is none. -/
def members (body : ErrorBody) : List (String × Json) :=
  [("code", .nat body.code.toNat), ("error", .str body.category), ("message", .str body.message)] ++
    body.field.toList.map fun field => ("field", .str field)

/-- A body with the time at which it was made. -/
def toJson (body : ErrorBody) (timestamp : String) : Json :=
  .obj (body.members ++ [("timestamp", .str timestamp)])

def shape : Json.Shape :=
  [("code", .required), ("error", .required), ("message", .required), ("field", .required),
    ("timestamp", .required)]

/-- A body and its time. -/
def ofRecord? (record : Json.Record) : Option (ErrorBody × Timestamp) := do
  let code ← record.required "code" Json.Node.word16?
  let category ← record.required "error" Json.Node.text?
  let message ← record.required "message" Json.Node.text?
  let field ← record.optional "field" Json.Node.text?
  let timestamp ← record.required "timestamp" fun node => node.text?.bind Timestamp.ofText?
  return (⟨code, category, message, field⟩, timestamp)

def decode (bytes : Bytes) : Except Json.ReadFault (ErrorBody × Timestamp) :=
  Json.read shape ofRecord? bytes

end ErrorBody

end CheckHarness
