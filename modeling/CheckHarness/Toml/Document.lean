import CheckHarness.Toml.Scalar
import CheckHarness.Toml.Table

namespace CheckHarness.Toml

/-- How deeply arrays and inline tables may be nested. -/
def maxDepth : Nat :=
  79

/-- The table that keys and values inside braces make. -/
def inlineTable? (members : List (List String × Value)) : Option Value := do
  let entries ← members.foldlM (fun entries member => Entries.insert member.1 member.2 entries) []
  return .table (Entries.values entries)

mutual

/-- A value. `fuel` bounds the steps, of which each takes a character. -/
def value? (fuel depth : Nat) (text : List Char) : Option (Value × List Char) :=
  match fuel with
  | 0 => none
  | fuel + 1 =>
    match text, depth with
    | '[' :: rest, depth + 1 => elements? fuel depth [] rest
    | '{' :: rest, depth + 1 =>
      -- Unlike an array, an inline table stays on its line.
      match skipBlanks rest with
      | '}' :: rest => some (.table [], rest)
      | rest => members? fuel depth [] rest
    | '[' :: _, 0 => none
    | '{' :: _, 0 => none
    | '"' :: rest, _ => (string? ('"' :: rest)).map fun read => (.string (String.ofList read.1), read.2)
    | '\'' :: rest, _ => (string? ('\'' :: rest)).map fun read => (.string (String.ofList read.1), read.2)
    | text, _ =>
      let (word, rest) := splitWord text
      (scalar? word).map fun value => (value, rest)

/-- The elements of an array up to its closing bracket; those read so far are in reverse. -/
def elements? (fuel depth : Nat) (read : List Value) (text : List Char) :
    Option (Value × List Char) :=
  match fuel with
  | 0 => none
  | fuel + 1 => do
    match ← skipFill false text with
    | ']' :: rest => return (.array read.reverse, rest)
    | text =>
      let (value, rest) ← value? fuel depth text
      match ← skipFill false rest with
      | ',' :: rest => elements? fuel depth (value :: read) rest
      | ']' :: rest => return (.array (value :: read).reverse, rest)
      | _ => none

/-- The members of an inline table up to its closing brace. -/
def members? (fuel depth : Nat) (read : List (List String × Value)) (text : List Char) :
    Option (Value × List Char) :=
  match fuel with
  | 0 => none
  | fuel + 1 => do
    let (key, rest) ← key? maxKeyLength text
    match rest with
    | '=' :: rest =>
      let (value, rest) ← value? fuel depth (skipBlanks rest)
      let read := (key, value) :: read
      match skipBlanks rest with
      | ',' :: rest => members? fuel depth read rest
      | '}' :: rest => return (← inlineTable? read.reverse, rest)
      | _ => none
    | _ => none

end

inductive Statement where
  | header (path : List String)
  /-- The header of a further table in an array. -/
  | element (path : List String)
  | keyValue (key : List String) (value : Value)
  deriving Repr

/-- One statement; the text after it is the rest of its line. -/
def statement? (text : List Char) : Option (Statement × List Char) :=
  match text with
  | '[' :: '[' :: rest => do
    match ← key? maxKeyLength rest with
    | (path, ']' :: ']' :: rest) => return (.element path, rest)
    | _ => none
  | '[' :: rest => do
    match ← key? maxKeyLength rest with
    | (path, ']' :: rest) => return (.header path, rest)
    | _ => none
  | text => do
    match ← key? maxKeyLength text with
    | (key, '=' :: rest) =>
      let (value, rest) ← value? (rest.length + 1) maxDepth (skipBlanks rest)
      return (.keyValue key value, rest)
    | _ => none

/-- The statements of a text, with at most one in each line. -/
def statements? : Nat → List Char → Option (List Statement)
  | 0, _ => none
  | fuel + 1, text =>
    match skipBlanks text with
    | [] => some []
    | '#' :: rest => do statements? fuel (← finishLine? ('#' :: rest))
    | text =>
      match lineEnd? text with
      | some rest => statements? fuel rest
      | none => do
        let (statement, rest) ← statement? text
        let statements ← statements? fuel (← finishLine? rest)
        return statement :: statements

/-- A document under construction: its tables and the path of the last header. The tables are built
from the statements in their order. -/
structure Document where
  entries : Entries
  header : List String

namespace Document

def start : Document :=
  ⟨[], []⟩

def add (document : Document) : Statement → Option Document
  | .header path => (Entries.openTable path document.entries).map (⟨·, path⟩)
  | .element path => (Entries.openElement path document.entries).map (⟨·, path⟩)
  | .keyValue key value =>
    (Entries.insertAt key value document.header document.entries).map (⟨·, document.header⟩)

end Document

/-- The root table of a document. A byte order mark may come first. -/
def parse? (text : String) : Option (List (String × Value)) := do
  let chars :=
    match text.toList with
    | '\uFEFF' :: rest => rest
    | chars => chars
  let statements ← statements? (chars.length + 1) chars
  let document ← statements.foldlM Document.add Document.start
  return Entries.values document.entries

end CheckHarness.Toml
