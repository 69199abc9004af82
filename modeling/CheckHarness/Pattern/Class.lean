namespace CheckHarness.Pattern

/-- A character that stands for itself. -/
structure Literal where
  value : Char
  /-- Whether it is written as one byte, in two hexadecimal digits. -/
  isByte : Bool
  deriving DecidableEq, Repr

/-- What stands between the brackets of a class. -/
inductive ClassSet where
  | empty
  | literal (literal : Literal)
  | range (first last : Literal)
  /-- A class of ASCII characters that has a name. -/
  | named (negated : Bool)
  /-- A class of digits, blanks or word characters that is written as an escape. -/
  | shorthand (negated : Bool)
  | bracketed (negated : Bool) (set : ClassSet)
  | union (items : List ClassSet)
  /-- An intersection or a difference. -/
  | operation (left right : ClassSet)
  deriving Repr, Inhabited

namespace ClassSet

/-- The union of some items. -/
def ofItems : List ClassSet → ClassSet
  | [] => .empty
  | [item] => item
  | items => .union items

mutual

/-- How deeply a set is nested. -/
def depth : ClassSet → Nat
  | .empty | .literal _ | .range _ _ | .named _ | .shorthand _ => 0
  | .bracketed _ set => set.depth + 1
  | .union items => depthOf items + 1
  | .operation left right => max left.depth right.depth + 1

/-- How deeply the deepest of some sets is nested. -/
def depthOf : List ClassSet → Nat
  | [] => 0
  | item :: items => max item.depth (depthOf items)

end

end ClassSet

end CheckHarness.Pattern
