namespace CheckHarness

/-- Why a text is not a numeral below the limit. -/
inductive NumeralFault where
  | empty
  | invalidDigit
  | tooLarge
  deriving DecidableEq, Repr

namespace NumeralFault

def message : NumeralFault → String
  | .empty => "cannot parse integer from empty string"
  | .invalidDigit => "invalid digit found in string"
  | .tooLarge => "number too large to fit in target type"

end NumeralFault

namespace Numeral

/-- The value of an ASCII digit. -/
def digitValue (c : Char) : Nat :=
  c.toNat - '0'.toNat

/-- Appends digits to a value already read. -/
def extend (limit value : Nat) : List Char → Except NumeralFault Nat
  | [] => .ok value
  | c :: rest =>
    if c.isDigit then
      let next := value * 10 + digitValue c
      if next < limit then extend limit next rest else .error .tooLarge
    else .error .invalidDigit

/-- The value of a numeral, which has to be below `limit`: an optional plus sign, then one or more
ASCII digits. A sign alone is no numeral, and leading zeros are allowed. The reader stops at the
first character that is no digit or that takes the value to the limit, so of two faults the leftmost
is reported. -/
def parse (limit : Nat) : List Char → Except NumeralFault Nat
  | [] => .error .empty
  | ['+'] => .error .invalidDigit
  | '+' :: digits => extend limit 0 digits
  | digits => extend limit 0 digits

/-- A numeral that fits sixteen bits. -/
def parse16 (text : String) : Except NumeralFault UInt16 :=
  (parse UInt16.size text.toList).map UInt16.ofNat

/-- A numeral that fits sixty-four bits. -/
def parse64 (text : String) : Except NumeralFault UInt64 :=
  (parse UInt64.size text.toList).map UInt64.ofNat

/-- The decimal digits of a number, without leading zeros. -/
def digits (n : Nat) : List Char :=
  Nat.toDigits 10 n

end Numeral

end CheckHarness
