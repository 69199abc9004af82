import CheckHarness.Text.Blank
import CheckHarness.Text.Numeral

namespace CheckHarness

/-- A date and a time of day, with their offset from universal time in minutes. -/
structure Timestamp where
  year : Int
  month : Nat
  day : Nat
  hour : Nat
  minute : Nat
  /-- Sixty for a leap second. -/
  second : Nat
  nanosecond : Nat
  offset : Int
  deriving DecidableEq, Repr

namespace Timestamp

def skipBlanks (text : List Char) : List Char :=
  text.dropWhile Text.isBlank

/-- A number of up to `width` digits, and the text after it. -/
def digits? (width : Nat) (text : List Char) : Option (Nat × List Char) :=
  let digits := (text.take width).takeWhile Char.isDigit
  if digits.isEmpty then none
  else some (Nat.ofDigitChars 10 digits 0, text.drop digits.length)

def number? (width : Nat) (text : List Char) : Option (Nat × List Char) :=
  digits? width (skipBlanks text)

/-- A year has four digits, or any number of them after a sign. -/
def year? (text : List Char) : Option (Int × List Char) :=
  match skipBlanks text with
  | '-' :: rest => (digits? rest.length rest).map fun read => (-(read.1 : Int), read.2)
  | '+' :: rest => (digits? rest.length rest).map fun read => ((read.1 : Int), read.2)
  | rest => (digits? 4 rest).map fun read => ((read.1 : Int), read.2)

/-- The text after a mark that blanks may precede. -/
def mark? (mark : Char) (text : List Char) : Option (List Char) :=
  match skipBlanks text with
  | c :: rest => if c = mark then some rest else none
  | [] => none

/-- The nanoseconds of a decimal fraction, of which nine digits count. -/
def fraction? : List Char → Option (Nat × List Char)
  | '.' :: rest =>
    let digits := rest.takeWhile Char.isDigit
    if digits.isEmpty then none
    else
      let counted := digits.take 9
      let padded := counted ++ List.replicate (9 - counted.length) '0'
      some (Nat.ofDigitChars 10 padded 0, rest.drop digits.length)
  | text => some (0, text)

/-- Two digits each for hours and minutes, which colons or blanks may separate. -/
def shift? (text : List Char) : Option (Nat × List Char) :=
  match text with
  | a :: b :: rest =>
    if a.isDigit && b.isDigit then
      match rest.dropWhile fun c => c = ':' || Text.isBlank c with
      | c :: d :: rest =>
        if c.isDigit && c < '6' && d.isDigit then
          some (Nat.ofDigitChars 10 [a, b] 0 * 60 + Nat.ofDigitChars 10 [c, d] 0, rest)
        else none
      | _ => none
    else none
  | _ => none

/-- The offset from universal time, which is less than a day, and the text after it. -/
def offset? (text : List Char) : Option (Int × List Char) :=
  if (text.take 3).map Char.toLower = ['u', 't', 'c'] then some (0, text.drop 3)
  else
    match text with
    | 'z' :: rest | 'Z' :: rest => some (0, rest)
    | sign :: rest =>
      if sign = '+' || sign = '-' || sign = '−' then
        match shift? rest with
        | some (minutes, rest) =>
          if minutes < 1440 then some (if sign = '+' then minutes else -(minutes : Int), rest)
          else none
        | none => none
      else none
    | [] => none

def isLeapYear (year : Int) : Bool :=
  year % 4 = 0 && (year % 100 != 0 || year % 400 = 0)

def daysInMonth (year : Int) (month : Nat) : Nat :=
  if month = 2 then if isLeapYear year then 29 else 28
  else if month = 4 || month = 6 || month = 9 || month = 11 then 30
  else 31

/-- The first and the last year that there is. -/
def firstYear : Int :=
  -262143

def lastYear : Int :=
  262142

/-- Whether the date and the time of day exist. -/
def exists? (stamp : Timestamp) : Bool :=
  firstYear ≤ stamp.year && stamp.year ≤ lastYear && 1 ≤ stamp.month && stamp.month ≤ 12 &&
    1 ≤ stamp.day && stamp.day ≤ daysInMonth stamp.year stamp.month && stamp.hour < 24 &&
    stamp.minute < 60 && stamp.second ≤ 60

/-- The minutes since midnight of the same day, in universal time. -/
def universalMinutes (stamp : Timestamp) : Int :=
  stamp.hour * 60 + stamp.minute - stamp.offset

/-- Whether the date in universal time is one that there is. It differs by a day at most. -/
def existsUniversally? (stamp : Timestamp) : Bool :=
  !(stamp.universalMinutes < 0 && stamp.year = firstYear && stamp.month = 1 && stamp.day = 1) &&
    !(1440 ≤ stamp.universalMinutes && stamp.year = lastYear && stamp.month = 12 && stamp.day = 31)

/-- Reads a point in time such as `2024-01-31T08:05:00.25+02:00`. Numbers may be shorter than usual
and blanks may stand before them, around the marks between them and at the end; the date and the
time of day have to exist, there and in universal time, and the offset from that is required. -/
def ofText? (text : String) : Option Timestamp := do
  let (year, rest) ← year? text.toList
  let (month, rest) ← number? 2 (← mark? '-' rest)
  let (day, rest) ← number? 2 (← mark? '-' rest)
  match rest with
  | [] => none
  | separator :: rest =>
    if separator = 'T' || separator = 't' || separator = ' ' then
      let (hour, rest) ← number? 2 rest
      let (minute, rest) ← number? 2 (← mark? ':' rest)
      let (second, rest) ← number? 2 (← mark? ':' rest)
      let (nanosecond, rest) ← fraction? rest
      let (offset, rest) ← offset? (skipBlanks rest)
      let stamp : Timestamp := { year, month, day, hour, minute, second, nanosecond, offset }
      if (skipBlanks rest).isEmpty && stamp.exists? && stamp.existsUniversally? then return stamp
      else none
    else none

end Timestamp

end CheckHarness
