import CheckHarness.Pattern.Class.Parser

namespace CheckHarness.Pattern

/-- The text still to be read, with what was set and named before it. -/
structure Cursor where
  rest : List Char
  spaced : Bool
  names : List (List Char)
  deriving Repr

namespace Cursor

/-- The cursor in front of another text. -/
def before (cursor : Cursor) (rest : List Char) : Cursor :=
  { cursor with rest }

/-- Whether blanks count after the switches. -/
def switch (cursor : Cursor) (switches : Switches) : Cursor :=
  { cursor with spaced := (switches.lookup .spaced).getD cursor.spaced }

/-- The cursor with one more name, which has to be new. -/
def name? (cursor : Cursor) : Option (List Char) → Option Cursor
  | none => some cursor
  | some name =>
    if cursor.names.contains name then none else some { cursor with names := name :: cursor.names }

end Cursor

/-- An escape as an item. -/
def ofEscape : Escape → Pattern
  | .literal lit => .literal lit
  | .shorthand negated => .shorthand negated
  | .assertion aboutWords => .assertion aboutWords

/-- The text behind an operator for repetition, which a question mark makes prefer fewer. -/
def afterOperator : List Char → List Char
  | '?' :: rest => rest
  | text => text

/-- An item other than a group; nothing comes of an opening brace. -/
def item? (spaced : Bool) : List Char → Option (Pattern × List Char)
  | [] => none
  | '\\' :: rest => (escape? spaced rest).map fun read => (ofEscape read.1, read.2)
  | '[' :: rest => class? spaced rest
  | '.' :: rest => some (.dot, rest)
  | '^' :: rest | '$' :: rest => some (.assertion false, rest)
  | '{' :: _ => none
  | c :: rest => some (.literal ⟨c, false⟩, rest)

/-- The inside of a group or of the whole pattern, up to the parenthesis that closes it or the end.
`branches` are the branches before the last bar, `items` the items behind it, both in reverse.
`fuel` bounds the steps, of which each takes a character. -/
def body? (fuel : Nat) (branches items : List Pattern) (cursor : Cursor) :
    Option (Pattern × Cursor) :=
  match fuel with
  | 0 => none
  | fuel + 1 =>
    match skip cursor.spaced cursor.rest with
    | [] => some (.ofBranches (.ofItems items.reverse :: branches).reverse, cursor.before [])
    | ')' :: rest =>
      some (.ofBranches (.ofItems items.reverse :: branches).reverse, cursor.before (')' :: rest))
    | '|' :: rest => body? fuel (.ofItems items.reverse :: branches) [] (cursor.before rest)
    | '?' :: rest | '*' :: rest | '+' :: rest =>
      match items with
      | [] | .switch _ :: _ => none
      | item :: items =>
        body? fuel branches (.repetition item :: items) (cursor.before (afterOperator rest))
    | '(' :: rest => do
      match ← opening? (skip cursor.spaced rest) with
      | (.switch switches, rest) =>
        body? fuel branches (.switch switches :: items) ((cursor.before rest).switch switches)
      | (.group switches name, rest) =>
        let inner ← (cursor.before rest).name? name
        let (body, inner) ← body? fuel [] [] (inner.switch switches)
        match inner.rest with
        | ')' :: rest =>
          body? fuel branches (.group switches body :: items)
            { inner with rest, spaced := cursor.spaced }
        | _ => none
    | text => do
      let (item, rest) ← item? cursor.spaced text
      body? fuel branches (item :: items) (cursor.before rest)

/-- The most that a pattern may be nested. -/
def maxDepth : Nat :=
  250

/-- The pattern that a text describes. A pattern is a choice of branches, a branch a row of items;
an operator for repetition follows the item it repeats. Repetitions cannot be counted. Patterns may
not be nested too deeply, and two groups may not share a name. -/
def parse? (text : List Char) : Option Pattern := do
  let (pattern, cursor) ← body? (text.length + 1) [] [] ⟨text, false, []⟩
  if cursor.rest.isEmpty && pattern.depth ≤ maxDepth then return pattern else none

end CheckHarness.Pattern
