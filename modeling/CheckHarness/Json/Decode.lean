import CheckHarness.Json.Node
import CheckHarness.Json.Escape
import CheckHarness.Text.Numeral

namespace CheckHarness.Json

/-- Why a text does not hold the value that is wanted. -/
inductive ReadFault where
  /-- The text is not JSON. -/
  | malformed
  /-- The text is JSON of another shape. -/
  | mismatched
  deriving DecidableEq, Repr

namespace ReadFault

def message : ReadFault → String
  | .malformed => "the text is not well-formed"
  | .mismatched => "the value does not have the expected shape"

end ReadFault

namespace Node

/-- The text of a string. -/
def text? : Node → Option String
  | .string body => unescape? body
  | _ => none

/-- The value of a number that is written with digits only and is below `limit`. -/
def natural? (limit : Nat) : Node → Option Nat
  | .number lexeme =>
    (Numeral.extend limit 0 (lexeme.map fun byte => Char.ofNat byte.toNat)).toOption
  | _ => none

def word16? (node : Node) : Option UInt16 :=
  (node.natural? UInt16.size).map UInt16.ofNat

def word32? (node : Node) : Option UInt32 :=
  (node.natural? UInt32.size).map UInt32.ofNat

def word64? (node : Node) : Option UInt64 :=
  (node.natural? UInt64.size).map UInt64.ofNat

/-- One of several named values: its name, or an object with the name as its only key and null as
the value. -/
def choice? (ofName? : String → Option α) : Node → Option α
  | .string body => (unescape? body).bind ofName?
  | .object [(key, .null)] => (unescape? key).bind ofName?
  | _ => none

/-- Null stands for an absent value. -/
def orNull? (read? : Node → Option α) : Node → Option (Option α)
  | .null => some none
  | node => (read? node).map some

end Node

/-- Whether a list that stands for a record may end before a member. -/
inductive Presence where
  | required
  | omissible
  deriving DecidableEq, Repr

/-- The members of a record in their declared order. -/
abbrev Shape := List (String × Presence)

/-- The members found in a text, with the names they were declared under. A record is written as an
object with its members in any order, or as a list of them in their declared order. Members of an
object that the record does not know are skipped, whatever they hold; a known member must not occur
twice. -/
abbrev Record := List (String × Node)

namespace Record

/-- The known members of an object. Every key has to be a text; one that is known must be new. -/
def ofMembers? (shape : Shape) : List (Bytes × Node) → Option Record
  | [] => some []
  | (body, value) :: members => do
    let key ← unescape? body
    let record ← ofMembers? shape members
    if (shape.map Prod.fst).contains key then
      if (record.map Prod.fst).contains key then none else some ((key, value) :: record)
    else some record

/-- Pairs the elements of a list with the members they stand for. -/
def ofElements? : Shape → List Node → Option Record
  | [], [] => some []
  | (name, _) :: shape, value :: elements => (ofElements? shape elements).map ((name, value) :: ·)
  | (_, .omissible) :: shape, [] => ofElements? shape []
  | _, _ => none

def ofNode? (shape : Shape) : Node → Option Record
  | .object members => ofMembers? shape members
  | .array elements => ofElements? shape elements
  | _ => none

/-- The value of a member that has to be there. -/
def required (record : Record) (name : String) (read? : Node → Option α) : Option α :=
  (record.lookup name).bind read?

/-- The value of a member that may be null or missing. -/
def optional (record : Record) (name : String) (read? : Node → Option α) : Option (Option α) :=
  match record.lookup name with
  | none => some none
  | some node => node.orNull? read?

end Record

/-- Reads a whole text as a record and the record as a value. -/
def read (shape : Shape) (ofRecord? : Record → Option α) (text : Bytes) : Except ReadFault α :=
  match Node.parse? text with
  | none => .error .malformed
  | some node =>
    match (Record.ofNode? shape node).bind ofRecord? with
    | none => .error .mismatched
    | some value => .ok value

/-- Reads a whole text as one of several named values. -/
def readChoice (ofName? : String → Option α) (text : Bytes) : Except ReadFault α :=
  match Node.parse? text with
  | none => .error .malformed
  | some node =>
    match node.choice? ofName? with
    | none => .error .mismatched
    | some value => .ok value

end CheckHarness.Json
