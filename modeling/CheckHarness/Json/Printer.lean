import CheckHarness.Text.Numeral
import CheckHarness.Text.Bytes
import CheckHarness.Text.Hex

namespace CheckHarness

/-- A JSON value. Members keep their order. The compact form has no blanks; the indented form puts
every element and member on a line of its own. -/
inductive Json where
  | null
  | bool (value : Bool)
  | nat (value : Nat)
  | str (text : String)
  | arr (elements : List Json)
  | obj (members : List (String × Json))
  deriving Repr, Inhabited

namespace Json

/-- Null for an absent value. -/
def ofOption (toJson : α → Json) : Option α → Json
  | none => .null
  | some value => toJson value

/-- A character inside a string. -/
def escapeChar (c : Char) : List Char :=
  if c = '"' then ['\\', '"']
  else if c = '\\' then ['\\', '\\']
  else if c.toNat < 0x20 then
    if c = '\x08' then ['\\', 'b']
    else if c = '\t' then ['\\', 't']
    else if c = '\n' then ['\\', 'n']
    else if c = '\x0c' then ['\\', 'f']
    else if c = '\r' then ['\\', 'r']
    else ['\\', 'u', '0', '0', Hex.digit (c.toNat / 16), Hex.digit (c.toNat % 16)]
  else [c]

def quote (text : String) : List Char :=
  '"' :: (text.toList.flatMap escapeChar ++ ['"'])

/-- The pieces with a separator between each two. -/
def separate (separator : List Char) : List (List Char) → List Char
  | [] => []
  | [piece] => piece
  | piece :: pieces => piece ++ separator ++ separate separator pieces

mutual

/-- The compact form. -/
def chars : Json → List Char
  | .null => "null".toList
  | .bool true => "true".toList
  | .bool false => "false".toList
  | .nat value => Numeral.digits value
  | .str text => quote text
  | .arr elements => '[' :: (separate [','] (elementChars elements) ++ [']'])
  | .obj members => '{' :: (separate [','] (memberChars members) ++ ['}'])

def elementChars : List Json → List (List Char)
  | [] => []
  | element :: elements => chars element :: elementChars elements

def memberChars : List (String × Json) → List (List Char)
  | [] => []
  | (key, value) :: members => (quote key ++ ':' :: chars value) :: memberChars members

end

/-- A new line with two blanks for each level. -/
def newline (level : Nat) : List Char :=
  '\n' :: List.replicate (2 * level) ' '

mutual

/-- The indented form of a value that begins on a line of the given level. -/
def indentedChars (level : Nat) : Json → List Char
  | .arr (element :: elements) =>
    '[' :: (separate [','] (indentedElements (level + 1) (element :: elements)) ++
      newline level ++ [']'])
  | .obj (member :: members) =>
    '{' :: (separate [','] (indentedMembers (level + 1) (member :: members)) ++
      newline level ++ ['}'])
  | .arr [] => "[]".toList
  | .obj [] => "\x7b\x7d".toList
  | .null => "null".toList
  | .bool true => "true".toList
  | .bool false => "false".toList
  | .nat value => Numeral.digits value
  | .str text => quote text

def indentedElements (level : Nat) : List Json → List (List Char)
  | [] => []
  | element :: elements =>
    (newline level ++ indentedChars level element) :: indentedElements level elements

def indentedMembers (level : Nat) : List (String × Json) → List (List Char)
  | [] => []
  | (key, value) :: members =>
    (newline level ++ quote key ++ ':' :: ' ' :: indentedChars level value) ::
      indentedMembers level members

end

/-- The compact form as a text. -/
def compact (value : Json) : String :=
  String.ofList value.chars

/-- The indented form as a text. -/
def indented (value : Json) : String :=
  String.ofList (value.indentedChars 0)

/-- The bytes that carry the compact form. -/
def encode (value : Json) : Bytes :=
  Bytes.ofText value.compact

end Json

end CheckHarness
