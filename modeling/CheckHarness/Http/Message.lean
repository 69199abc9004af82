import CheckHarness.Http.Target

namespace CheckHarness.Http

/-- The characters that a method is made of. -/
def isTokenChar (c : Char) : Bool :=
  c.isAlphanum || "!#$%&'*+-.^_`|~".toList.contains c

def isMethod (text : String) : Bool :=
  !text.isEmpty && text.toList.all isTokenChar

/-- Whether a text can be the value of a header: it holds no control characters but tabs. -/
def isHeaderValue (text : String) : Bool :=
  text.toList.all fun c => c = '\t' || (0x20 ≤ c.toNat && c.toNat != 0x7F)

/-- A request, as far as a service looks at it. -/
structure Request where
  method : String
  target : Target
  contentType : Option String
  body : Bytes
  deriving DecidableEq, Repr

namespace Request

def path (request : Request) : String :=
  request.target.path

/-- The request with the given parts, if they are well-formed. -/
def ofParts? (method target : String) (contentType : Option String) (body : Bytes) :
    Option Request := do
  let target ← Target.ofText? target
  if isMethod method && contentType.all isHeaderValue then
    return ⟨method, target, contentType, body⟩
  else none

end Request

/-- A reply, as far as a client looks at it. -/
structure Reply where
  status : UInt16
  contentType : Option String
  /-- The methods that the target knows, where the request's was not among them. -/
  allow : Option String
  body : Bytes
  deriving DecidableEq, Repr

namespace Reply

/-- A reply without a body. -/
def empty (status : UInt16) : Reply :=
  ⟨status, none, none, []⟩

/-- A reply to a method that the target does not know. -/
def notAllowed (methods : List String) : Reply :=
  ⟨405, none, some (",".intercalate methods), []⟩

def withText (status : UInt16) (contentType text : String) : Reply :=
  ⟨status, some contentType, none, Bytes.ofText text⟩

/-- The reply without its body, as it answers a request for the head only. -/
def headOnly (reply : Reply) : Reply :=
  { reply with body := [] }

end Reply

end CheckHarness.Http
