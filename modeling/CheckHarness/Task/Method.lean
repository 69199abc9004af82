import CheckHarness.Fault

namespace CheckHarness

/-- What the tasks of one chain are about. A chain ties a put to its later get. -/
inductive ChainKind where
  | flag
  | noise
  | havoc
  deriving DecidableEq, Repr

namespace ChainKind

def all : List ChainKind :=
  [.flag, .noise, .havoc]

def name : ChainKind → String
  | .flag => "flag"
  | .noise => "noise"
  | .havoc => "havoc"

/-- The kind with the given name. -/
def ofName? (name : String) : Option ChainKind :=
  all.find? fun kind => kind.name == name

end ChainKind

/-- One of the five operations of a checker. -/
inductive Method where
  | putFlag
  | getFlag
  | putNoise
  | getNoise
  | havoc
  deriving DecidableEq, Repr

namespace Method

def all : List Method :=
  [.putFlag, .getFlag, .putNoise, .getNoise, .havoc]

def name : Method → String
  | .putFlag => "putflag"
  | .getFlag => "getflag"
  | .putNoise => "putnoise"
  | .getNoise => "getnoise"
  | .havoc => "havoc"

/-- The kind of chain that a method's tasks belong to. -/
def chainKind : Method → ChainKind
  | .putFlag | .getFlag => .flag
  | .putNoise | .getNoise => .noise
  | .havoc => .havoc

def requiresFlag : Method → Bool
  | .putFlag | .getFlag => true
  | _ => false

/-- The method with the given name; names are compared exactly. -/
def ofName? (name : String) : Option Method :=
  all.find? fun method => method.name == name

def parse (text : String) : Except Fault Method :=
  match ofName? text with
  | some method => .ok method
  | none => .error (.validation "method" ("unknown method '" ++ text ++ "'"))

end Method

end CheckHarness
