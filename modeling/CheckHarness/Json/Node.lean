import CheckHarness.Json.Token

namespace CheckHarness.Json

/-- A JSON text as a tree. Keys are kept as they were written, and may repeat. So are the leaves:
what they mean is decided where a value of a certain type is wanted. -/
inductive Node where
  | null
  | bool (value : Bool)
  | number (lexeme : Bytes)
  | string (body : Bytes)
  | array (elements : List Node)
  | object (members : List (Bytes × Node))
  deriving Repr, Inhabited

/-- A container that is still open; what it holds so far is in reverse. -/
inductive Frame where
  | array (elements : List Node)
  /-- An object, and the key whose value is being read. -/
  | object (members : List (Bytes × Node)) (key : Bytes)
  deriving Repr

/-- What has to come next. -/
inductive Expected where
  | value
  /-- The first element of an array, or its end. -/
  | firstElement
  /-- The first key of an object, or its end. -/
  | firstKey (members : List (Bytes × Node))
  | key (members : List (Bytes × Node))
  | colon (members : List (Bytes × Node)) (key : Bytes)
  /-- After a value. -/
  | more (value : Node)
  deriving Repr

/-- The containers still open, the innermost first, and what has to come next. They are kept on a
stack, so a text may be nested to any depth. -/
structure Builder where
  frames : List Frame
  expected : Expected
  deriving Repr

namespace Builder

def start : Builder :=
  ⟨[], .value⟩

/-- A token where a value has to begin. -/
def beginValue (frames : List Frame) : Token → Option Builder
  | .null => some ⟨frames, .more .null⟩
  | .true => some ⟨frames, .more (.bool true)⟩
  | .false => some ⟨frames, .more (.bool false)⟩
  | .number lexeme => some ⟨frames, .more (.number lexeme)⟩
  | .string body => some ⟨frames, .more (.string body)⟩
  | .openBracket => some ⟨.array [] :: frames, .firstElement⟩
  | .openBrace => some ⟨frames, .firstKey []⟩
  | _ => none

/-- A token after a complete value of the innermost container. -/
def afterValue (value : Node) : List Frame → Token → Option Builder
  | .array elements :: frames, .comma => some ⟨.array (value :: elements) :: frames, .value⟩
  | .array elements :: frames, .closeBracket =>
    some ⟨frames, .more (.array (value :: elements).reverse)⟩
  | .object members key :: frames, .comma => some ⟨frames, .key ((key, value) :: members)⟩
  | .object members key :: frames, .closeBrace =>
    some ⟨frames, .more (.object ((key, value) :: members).reverse)⟩
  | _, _ => none

def step (builder : Builder) (token : Token) : Option Builder :=
  match builder.expected, token with
  | .value, token => beginValue builder.frames token
  | .firstElement, .closeBracket =>
    match builder.frames with
    | .array elements :: frames => some ⟨frames, .more (.array elements.reverse)⟩
    | _ => none
  | .firstElement, token => beginValue builder.frames token
  | .firstKey members, .closeBrace => some ⟨builder.frames, .more (.object members.reverse)⟩
  | .firstKey members, .string key => some ⟨builder.frames, .colon members key⟩
  | .key members, .string key => some ⟨builder.frames, .colon members key⟩
  | .colon members key, .colon => some ⟨.object members key :: builder.frames, .value⟩
  | .more value, token => afterValue value builder.frames token
  | _, _ => none

/-- The whole value, if nothing is left open. -/
def finish (builder : Builder) : Option Node :=
  match builder.frames, builder.expected with
  | [], .more value => some value
  | _, _ => none

end Builder

namespace Node

/-- The value that the tokens spell, if they spell exactly one. -/
def ofTokens? (tokens : List Token) : Option Node :=
  (tokens.foldlM Builder.step Builder.start).bind Builder.finish

/-- The value of a JSON text. -/
def parse? (text : Bytes) : Option Node :=
  (tokens? text).bind ofTokens?

end Node

end CheckHarness.Json
