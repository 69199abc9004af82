import CheckHarness.Log.FieldFilter
import CheckHarness.Text.Alphanumeric
import CheckHarness.Text.Blank
import CheckHarness.Text.Slice

namespace CheckHarness.Log

/-- Why a text is not a filter. -/
inductive FilterFault where
  | invalidDirective
  | invalidLevel
  | invalidField (fault : FieldFault)
  deriving DecidableEq, Repr

namespace FilterFault

def message : FilterFault → String
  | .invalidDirective => "invalid filter directive"
  | .invalidLevel =>
    "error parsing level filter: expected one of \"off\", \"error\", \"warn\", \"info\", \"debug\", \"trace\", or a number 0-5"
  | .invalidField fault => "invalid field filter: " ++ fault.message

end FilterFault

namespace Directive

/-- What comes of reading a part of a directive. -/
abbrev Read (α : Type) := Except (Failure FilterFault) α

def invalid : Read α :=
  .error (.fault .invalidDirective)

def levelNames : List String :=
  ["off", "error", "warn", "info", "debug", "trace"]

/-- A level is empty, a name in any case, or a number up to five. -/
def isLevel (text : List Char) : Bool :=
  text.isEmpty ||
    levelNames.contains (String.ofList (text.map Char.toLower)) ||
    match Numeral.parse UInt64.size text with
    | .ok level => level ≤ 5
    | .error _ => false

/-- The characters that a target or a level may begin with. -/
def beginsName (c : Char) : Bool :=
  c = '-' || c = ':' || c = '_' || Text.isAlphanumeric c

/-- What the text read so far ends in; `start` is the byte offset where it began. -/
inductive Stage where
  | start
  /-- A target, or a bare level. -/
  | name (start : Nat)
  | span (start : Nat)
  /-- A condition on a field. -/
  | field (start : Nat)
  | afterField
  | afterSpan
  | level (start : Nat)
  deriving DecidableEq, Repr

/-- A cut that there is not. -/
def cut (part : Option (List Char)) : Read (List Char) :=
  match part with
  | some part => .ok part
  | none => .error .crash

/-- The stage after one more character at the given offset. -/
def advance (text : List Char) (stage : Stage) (offset : Nat) (c : Char) : Read Stage :=
  match stage with
  | .start =>
    if c = '[' then .ok (.span (offset + 1))
    else if beginsName c then .ok (.name offset)
    else invalid
  | .name start =>
    -- The part is not looked at any more, but cutting it out may crash.
    if c = '=' then (cut (Text.slice? start offset text)).map fun _ => .level (offset + 1)
    else if c = '[' then (cut (Text.slice? start offset text)).map fun _ => .span (offset + 1)
    else .ok stage
  | .span start =>
    if c = ']' then (cut (Text.slice? start offset text)).map fun _ => .afterSpan
    else if c = '{' then (cut (Text.slice? start offset text)).map fun _ => .field (offset + 1)
    else .ok stage
  | .field start =>
    if c = '}' then do
      let condition ← cut (Text.slice? start offset text)
      if condition.isEmpty then invalid
      else
        (FieldFilter.check condition).mapError fun fault => .fault (.invalidField fault)
        return .afterField
    else .ok stage
  | .afterField => if c = ']' then .ok .afterSpan else invalid
  | .afterSpan => if c = '=' then .ok (.level (offset + 1)) else invalid
  | .level _ => .ok stage

/-- Passes if the directive may end here. -/
def conclude (text : List Char) : Stage → Read Unit
  | .name _ | .afterSpan => .ok ()
  | .level start => do
    if isLevel (← cut (Text.dropBytes? start text)) then return
    else .error (.fault .invalidLevel)
  | .start | .span _ | .field _ | .afterField => invalid

/-- Reads on; `text` is the whole directive. -/
def checkFrom (text : List Char) (stage : Stage) (offset : Nat) : List Char → Read Unit
  | [] => conclude text stage
  | c :: rest => do checkFrom text (← advance text stage offset c) (offset + c.utf8Size) rest

/-- Passes for a directive. It names a target, a span in brackets or both, and after an equals sign
a level; a bare word is a level or a target. Inside its brackets a span may have a condition on a
field in braces. Blanks around a directive are skipped when it is read, but its parts are cut out of
the whole text at the offsets counted without them. So blanks at its beginning shift every part, a
level keeps the blanks at its end, and a cut that falls inside a character is a crash. -/
def check (text : List Char) : Read Unit :=
  checkFrom text .start 0 (Text.trim text)

end Directive

end CheckHarness.Log
