import CheckHarness.Text.Hex
import CheckHarness.Text.Numeral
import CheckHarness.Toml.Lexical
import CheckHarness.Toml.Value

namespace CheckHarness.Toml

/-- The four kinds of strings. -/
inductive Quoting where
  | basic
  | literal
  | basicLines
  | literalLines
  deriving DecidableEq, Repr

namespace Quoting

def delimiter : Quoting → List Char
  | .basic => ['"']
  | .literal => ['\'']
  | .basicLines => ['"', '"', '"']
  | .literalLines => ['\'', '\'', '\'']

def hasLines : Quoting → Bool
  | .basicLines | .literalLines => true
  | .basic | .literal => false

def hasEscapes : Quoting → Bool
  | .basic | .basicLines => true
  | .literal | .literalLines => false

/-- The length of the longest run of a character, given the run that ends here. -/
def longestRun (c : Char) (current : Nat) : List Char → Nat
  | [] => current
  | other :: text =>
    if other = c then longestRun c (current + 1) text else max current (longestRun c 0 text)

/-- The longest run of a quotation mark that can be counted, in one byte. A text with a longer run
is not written at all. -/
def maxRun : Nat :=
  255

/-- Whether the runs of quotation marks in a text can be counted. -/
def hasCountableRuns (text : List Char) : Bool :=
  longestRun '"' 0 text ≤ maxRun && longestRun '\'' 0 text ≤ maxRun

/-- A control character that no string holds as it is. -/
def isControl (c : Char) : Bool :=
  c != '\t' && c != '\n' && (c.toNat < 0x20 || c.toNat = 0x7F)

/-- The kind of string that a text is written as. -/
def ofText (text : List Char) : Quoting :=
  let controls := text.any isControl
  let newline := text.contains '\n'
  let backslash := text.contains '\\'
  let doubles := longestRun '"' 0 text
  let singles := longestRun '\'' 0 text
  if !controls && !backslash && doubles = 0 && !newline then .basic
  else if !controls && singles = 0 && !newline then .literal
  else if !controls && !backslash && doubles ≤ 2 then .basicLines
  else if !controls && singles ≤ 2 then .literalLines
  else if newline then .basicLines
  else .basic

end Quoting

/-- A text with its escapes. `quotes` counts the double quotes just before, of which a string of
several lines may hold two in a row. -/
def escapeChars (lines : Bool) (quotes : Nat) : List Char → List Char
  | [] => []
  | c :: text =>
    if c = '"' then
      if quotes < (if lines then 2 else 0) then '"' :: escapeChars lines (quotes + 1) text
      else '\\' :: '"' :: escapeChars lines 0 text
    else if c = '\x08' then '\\' :: 'b' :: escapeChars lines 0 text
    else if c = '\t' then '\\' :: 't' :: escapeChars lines 0 text
    else if c = '\n' && !lines then '\\' :: 'n' :: escapeChars lines 0 text
    else if c = '\x0c' then '\\' :: 'f' :: escapeChars lines 0 text
    else if c = '\r' then '\\' :: 'r' :: escapeChars lines 0 text
    else if c = '\\' then '\\' :: '\\' :: escapeChars lines 0 text
    else if c != '\n' && (c.toNat < 0x20 || c.toNat = 0x7F) then
      '\\' :: 'u' :: '0' :: '0' :: (Hex.digit (c.toNat / 16)).toUpper ::
        (Hex.digit (c.toNat % 16)).toUpper :: escapeChars lines 0 text
    else c :: escapeChars lines 0 text

/-- A string value, in double quotes where nothing in it has to be escaped; otherwise in the first
of the other three kinds that can hold the text as it is, with escapes only where no kind can. One
of several lines begins on a line of its own. -/
def quote (text : List Char) : List Char :=
  let quoting := Quoting.ofText text
  let opening := if quoting.hasLines && text.contains '\n' then ['\n'] else []
  let body := if quoting.hasEscapes then escapeChars quoting.hasLines 0 text else text
  quoting.delimiter ++ opening ++ body ++ quoting.delimiter

def integerChars (value : Int) : List Char :=
  if value < 0 then '-' :: Numeral.digits value.natAbs else Numeral.digits value.natAbs

/-- The pieces with a separator between each two. -/
def join (separator : List Char) : List (List Char) → List Char
  | [] => []
  | [piece] => piece
  | piece :: pieces => piece ++ separator ++ join separator pieces

/-- A name before an equals sign, in quotes unless it may stand bare. -/
def nameChars (name : String) : List Char :=
  if name.isEmpty || !name.toList.all isBareKeyChar then quote name.toList else name.toList

mutual

/-- A value after its equals sign. Tables that are values stand in braces. -/
def valueChars : Value → List Char
  | .string text => quote text.toList
  | .integer value => integerChars value
  | .float lexeme => lexeme.toList
  | .boolean true => "true".toList
  | .boolean false => "false".toList
  | .datetime lexeme => lexeme.toList
  | .array elements => '[' :: (join [',', ' '] (elementChars elements) ++ [']'])
  | .table entries => '{' :: ' ' :: (join [',', ' '] (entryChars entries) ++ [' ', '}'])

def elementChars : List Value → List (List Char)
  | [] => []
  | element :: elements => valueChars element :: elementChars elements

def entryChars : List (String × Value) → List (List Char)
  | [] => []
  | (name, value) :: entries =>
    (nameChars name ++ [' ', '=', ' '] ++ valueChars value) :: entryChars entries

end

mutual

/-- Whether every text of a value, or of a name in it, can be written. -/
def isWritable : Value → Bool
  | .string text => Quoting.hasCountableRuns text.toList
  | .array elements => areWritable elements
  | .table entries => entriesAreWritable entries
  | .integer _ | .float _ | .boolean _ | .datetime _ => true

def areWritable : List Value → Bool
  | [] => true
  | element :: elements => isWritable element && areWritable elements

def entriesAreWritable : List (String × Value) → Bool
  | [] => true
  | (name, value) :: entries =>
    Quoting.hasCountableRuns name.toList && isWritable value && entriesAreWritable entries

end

/-- A section of a document: a table under a header of its own. -/
structure Section where
  name : String
  entries : List (String × Value)
  deriving Repr

namespace Section

def chars (part : Section) : List Char :=
  '[' :: (nameChars part.name ++ [']', '\n'] ++
    (entryChars part.entries).flatMap fun line => line ++ ['\n'])

/-- Whether every text of a section can be written. -/
def isWritable (part : Section) : Bool :=
  Quoting.hasCountableRuns part.name.toList && entriesAreWritable part.entries

end Section

/-- The sections with an empty line between each two. -/
def render (parts : List Section) : String :=
  String.ofList (join ['\n'] (parts.map Section.chars))

/-- The text of the sections, if they can be written. -/
def render? (parts : List Section) : Option String :=
  if parts.all Section.isWritable then some (render parts) else none

/-- The tables that a document with these sections holds. -/
def tables (parts : List Section) : List (String × Value) :=
  parts.map fun part => (part.name, .table part.entries)

end CheckHarness.Toml
