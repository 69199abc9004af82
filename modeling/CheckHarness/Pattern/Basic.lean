import CheckHarness.Pattern.Class

namespace CheckHarness.Pattern

/-- What can be switched inside a pattern. -/
inductive Flag where
  | ignoresCase
  | multiLine
  | dotIsAny
  | swapsGreed
  | unicode
  | crlf
  /-- Blanks between items do not count, and comments are possible. -/
  | spaced
  deriving DecidableEq, Repr

/-- Flags that are switched on or off. -/
abbrev Switches := List (Flag × Bool)

end CheckHarness.Pattern

namespace CheckHarness

/-- A regular expression that is searched for in the values of log entries. It is taken as far as
its form goes; nothing is matched. -/
inductive Pattern where
  | empty
  /-- Switches flags for the rest of the group. -/
  | switch (switches : Pattern.Switches)
  | literal (literal : Pattern.Literal)
  | dot
  /-- A condition on the place; `aboutWords` for one on what a word is. -/
  | assertion (aboutWords : Bool)
  | shorthand (negated : Bool)
  | bracketed (negated : Bool) (set : Pattern.ClassSet)
  | repetition (body : Pattern)
  | group (switches : Pattern.Switches) (body : Pattern)
  | concatenation (items : List Pattern)
  | alternation (branches : List Pattern)
  deriving Repr, Inhabited

namespace Pattern

/-- Some items in a row. -/
def ofItems : List Pattern → Pattern
  | [] => .empty
  | [item] => item
  | items => .concatenation items

/-- A choice between some branches. -/
def ofBranches : List Pattern → Pattern
  | [] => .empty
  | [branch] => branch
  | branches => .alternation branches

mutual

/-- How deeply a pattern is nested. -/
def depth : Pattern → Nat
  | .empty | .switch _ | .literal _ | .dot | .assertion _ | .shorthand _ => 0
  | .bracketed _ set => set.depth + 1
  | .repetition body | .group _ body => body.depth + 1
  | .concatenation items | .alternation items => depthOf items + 1

/-- How deeply the deepest of some patterns is nested. -/
def depthOf : List Pattern → Nat
  | [] => 0
  | item :: items => max item.depth (depthOf items)

end

end Pattern

end CheckHarness
