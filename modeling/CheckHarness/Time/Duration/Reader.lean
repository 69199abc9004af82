import CheckHarness.Failure
import CheckHarness.Text.Blank
import CheckHarness.Text.Numeral
import CheckHarness.Time.Duration.Unit

namespace CheckHarness.Duration

/-- Why a text is not a span of time. -/
inductive ReadFault where
  | empty
  | numberExpected (offset : Nat)
  | unitMissing (value : Nat)
  | unknownUnit (unit : String)
  | invalidCharacter (offset : Nat)
  /-- A number is too large, or its fraction is too fine. -/
  | outOfRange
  deriving DecidableEq, Repr

namespace ReadFault

def message : ReadFault → String
  | .empty => "value was empty"
  | .numberExpected offset => s!"expected number at {offset}"
  | .unitMissing value => s!"time unit needed, for example {value}sec or {value}ms"
  | .unknownUnit unit =>
    s!"unknown time unit \"{unit}\", supported units: ns, us/µs, ms, sec, min, hours, days, weeks, months, years (and few variations)"
  | .invalidCharacter offset => s!"invalid character at {offset}"
  | .outOfRange =>
    "number is too large or cannot be represented without a lack of precision (values below 1ns are not supported)"

end ReadFault

/-- A decimal fraction: how many of how many equal shares. -/
structure Fraction where
  numerator : Nat
  denominator : Nat
  deriving DecidableEq, Repr

/-- What the text read so far ends in. -/
inductive Stage where
  /-- Before the first number; `start` is the offset where the search for it began. -/
  | first (start : Nat)
  /-- After a complete part. -/
  | next (start : Nat)
  | whole (value : Nat)
  /-- A fraction; `seen` is the offset after its last accepted character. -/
  | fraction (value : Nat) (share : Fraction) (seen : Nat)
  /-- A unit; its letters are in reverse. -/
  | unit (value : Nat) (share : Option Fraction) (letters : List Char)
  deriving DecidableEq, Repr

/-- What comes of reading. -/
abbrev Reading (α : Type) := Except (Failure ReadFault) α

def outOfRange : Reading α :=
  .error (.fault .outOfRange)

/-- What a 64-bit counter can hold. -/
def word (n : Nat) : Reading Nat :=
  if n < UInt64.size then .ok n else outOfRange

/-- The exact quotient. -/
def divide (n d : Nat) : Reading Nat :=
  if n % d = 0 then .ok (n / d) else outOfRange

/-- Adds a count of seconds and one of nanoseconds to a total. Every count on the way has to fit
sixty-four bits. Nanoseconds that make exactly one second are carried last, past every check. -/
def addPart (total : Duration) (seconds nanoseconds : Nat) : Reading Duration := do
  let below ← word (total.subsecond + nanoseconds)
  match ofNanoseconds? ((total.seconds + seconds) * 1000000000 + below) with
  | some sum => .ok sum
  | none =>
    if below = 1000000000 ∧ total.seconds + seconds < UInt64.size then .error .crash
    else outOfRange

/-- Adds a whole number of units. -/
def addWhole (total : Duration) (value : Nat) (unit : Unit) : Reading Duration :=
  if unit.isSubsecond then do addPart total 0 (← word (value * unit.nanoseconds))
  else do addPart total (← word (value * (unit.nanoseconds / 1000000000))) 0

/-- Adds a fraction of a unit. A nanosecond has no fractions. -/
def addFraction (total : Duration) (share : Fraction) (unit : Unit) : Reading Duration :=
  if unit = .nanosecond then outOfRange
  else do
    let scaled ← word (share.numerator * (unit.nanoseconds / unit.grain))
    let count ← divide scaled share.denominator
    if unit.grain = 1 then addPart total 0 count else addPart total count 0

/-- Adds a complete part. -/
def addUnit (total : Duration) (value : Nat) (share : Option Fraction) (letters : List Char) :
    Reading Duration :=
  match Unit.ofName? (String.ofList letters.reverse) with
  | none =>
    .error (.fault (
      if letters.isEmpty then .unitMissing value else .unknownUnit (String.ofList letters.reverse)))
  | some unit => do
    let total ← addWhole total value unit
    match share with
    | none => return total
    | some share => addFraction total share unit

/-- The letters that units are made of. -/
def isUnitLetter (c : Char) : Bool :=
  c.isAlpha || c = 'µ'

/-- One more digit of a fraction. -/
def Fraction.push (share : Fraction) (c : Char) : Reading Fraction := do
  let denominator ← word (share.denominator * 10)
  let numerator ← word (share.numerator * 10 + Numeral.digitValue c)
  return ⟨numerator, denominator⟩

/-- The stage after one more character, which starts at the given offset. -/
def advance (total : Duration) (stage : Stage) (offset : Nat) (c : Char) :
    Reading (Duration × Stage) :=
  let after := offset + c.utf8Size
  match stage with
  | .first start | .next start =>
    if c.isDigit then .ok (total, .whole (Numeral.digitValue c))
    else if Text.isBlank c then .ok (total, stage)
    else .error (.fault (.numberExpected start))
  | .whole value =>
    if c.isDigit then do return (total, .whole (← word (value * 10 + Numeral.digitValue c)))
    else if Text.isBlank c then .ok (total, .whole value)
    else if isUnitLetter c then .ok (total, .unit value none [c])
    else if c = '.' then .ok (total, .fraction value ⟨0, 1⟩ offset)
    else .error (.fault (.invalidCharacter offset))
  | .fraction value share seen =>
    if c.isDigit then do return (total, .fraction value (← share.push c) after)
    else if Text.isBlank c then .ok (total, .fraction value share after)
    else if isUnitLetter c then
      -- A point without digits.
      if share.denominator = 1 then .error (.fault (.invalidCharacter seen))
      else .ok (total, .unit value (some share) [c])
    else .error (.fault (.invalidCharacter seen))
  | .unit value share letters =>
    if c.isDigit then do
      return (← addUnit total value share letters, .whole (Numeral.digitValue c))
    else if Text.isBlank c then do return (← addUnit total value share letters, .next after)
    else if isUnitLetter c then .ok (total, .unit value share (c :: letters))
    else .error (.fault (.invalidCharacter offset))

/-- The span, if the text may end here. -/
def conclude (total : Duration) : Stage → Reading Duration
  | .first _ => .error (.fault .empty)
  | .next _ => .ok total
  | .whole value => addUnit total value none []
  | .fraction value share seen =>
    if share.denominator = 1 then .error (.fault (.invalidCharacter seen))
    else addUnit total value (some share) []
  | .unit value share letters => addUnit total value share letters

def readFrom (total : Duration) (stage : Stage) (offset : Nat) : List Char → Reading Duration
  | [] => conclude total stage
  | c :: rest => do
    let (total, stage) ← advance total stage offset c
    readFrom total stage (offset + c.utf8Size) rest

/-- The span that a text such as `1h 30m` or `2.5s` describes: a sequence of parts, each a number
with an optional decimal fraction and a unit. A lone `0` is no time at all. Blanks may stand
anywhere but inside a unit. The text is read one character at a time; faults name the byte offset
where they were noticed. A sum that leaves the range of spans is a fault, except in one place: whole
seconds are carried out of the nanoseconds only once these exceed one second, and a last exact
second that no longer fits crashes. -/
def parse (text : String) : Reading Duration :=
  if text = "0" then .ok zero else readFrom zero (.first 0) 0 text.toList

end CheckHarness.Duration
