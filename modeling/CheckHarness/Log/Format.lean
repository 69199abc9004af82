import CheckHarness.Fault

namespace CheckHarness.Log

/-- The forms in which the log can be written. -/
inductive Format where
  | text
  | json
  deriving DecidableEq, Repr

namespace Format

def all : List Format :=
  [.text, .json]

def name : Format → String
  | .text => "text"
  | .json => "json"

/-- The form with the given name; names are compared exactly. -/
def ofName? (name : String) : Option Format :=
  all.find? fun format => format.name == name

/-- The form with the given name in any case; only ASCII letters have two. -/
def parse (text : String) : Except Fault Format :=
  let lowered := text.map Char.toLower
  match ofName? lowered with
  | some format => .ok format
  | none =>
    .error (.configuration "logging.format" ("unknown format '" ++ lowered ++ "', expected text or json"))

end Format

end CheckHarness.Log
