import CheckHarness.Text.Hex

namespace CheckHarness.Toml

/-- A blank inside a line. -/
def isBlank (c : Char) : Bool :=
  c = ' ' || c = '\t'

def skipBlanks (text : List Char) : List Char :=
  text.dropWhile isBlank

/-- A character that may stand in a comment: anything but controls, the tab excepted. -/
def isCommentChar (c : Char) : Bool :=
  c = '\t' || (0x20 ≤ c.toNat && c.toNat != 0x7F)

/-- The text after a line end. -/
def lineEnd? : List Char → Option (List Char)
  | '\n' :: rest => some rest
  | '\r' :: '\n' :: rest => some rest
  | _ => none

/-- The text after the rest of a line, which may hold blanks and a comment; the last line needs no
end. -/
def finishLine? (text : List Char) : Option (List Char) :=
  let text :=
    match skipBlanks text with
    | '#' :: comment => comment.dropWhile isCommentChar
    | text => text
  if text.isEmpty then some [] else lineEnd? text

/-- The text after the blanks, line ends and comments that may stand between the elements of an
array. A comment has to end with its line. -/
def skipFill (inComment : Bool) : List Char → Option (List Char)
  | [] => some []
  | '\n' :: rest => skipFill false rest
  | '\r' :: '\n' :: rest => skipFill false rest
  | c :: rest =>
    if inComment then if isCommentChar c then skipFill true rest else none
    else if isBlank c then skipFill false rest
    else if c = '#' then skipFill true rest
    else some (c :: rest)

/-- The character that hexadecimal digits name; surrogates are no characters. -/
def codePoint? (digits : List Char) : Option Char := do
  let n := (← digits.mapM Hex.value?).foldl (fun value digit => value * 16 + digit) 0
  if h : n.isValidChar then return Char.ofNatAux n h else none

/-- The character that a letter after a backslash stands for. -/
def escape? : Char → Option Char
  | 'b' => some '\x08'
  | 't' => some '\t'
  | 'n' => some '\n'
  | 'f' => some '\x0c'
  | 'r' => some '\r'
  | '"' => some '"'
  | '\\' => some '\\'
  | _ => none

/-- The rest of a basic string; what was read of it is in reverse. -/
def basicString (read : List Char) : List Char → Option (List Char × List Char)
  | [] => none
  | '"' :: rest => some (read.reverse, rest)
  | '\\' :: 'u' :: a :: b :: c :: d :: rest => do basicString ((← codePoint? [a, b, c, d]) :: read) rest
  | '\\' :: 'U' :: a :: b :: c :: d :: e :: f :: g :: h :: rest => do
    basicString ((← codePoint? [a, b, c, d, e, f, g, h]) :: read) rest
  | '\\' :: c :: rest => do basicString ((← escape? c) :: read) rest
  | c :: rest => if isCommentChar c then basicString (c :: read) rest else none

/-- The rest of a literal string, in which nothing is escaped. -/
def literalString (read : List Char) : List Char → Option (List Char × List Char)
  | [] => none
  | '\'' :: rest => some (read.reverse, rest)
  | c :: rest => if isCommentChar c then literalString (c :: read) rest else none

/-- Whether a backslash before this text joins two lines. -/
def joinsLines (text : List Char) : Bool :=
  (lineEnd? (skipBlanks text)).isSome

/-- The rest of a basic string of several lines. `joining` holds after a backslash that joins
lines, until the next character that is neither a blank nor a line end. Up to two quotes may stand
before the closing three. -/
def basicLines (joining : Bool) (read : List Char) : List Char → Option (List Char × List Char)
  | [] => none
  | '"' :: '"' :: '"' :: '"' :: '"' :: rest => some (('"' :: '"' :: read).reverse, rest)
  | '"' :: '"' :: '"' :: '"' :: rest => some (('"' :: read).reverse, rest)
  | '"' :: '"' :: '"' :: rest => some (read.reverse, rest)
  | '\r' :: '\n' :: rest => basicLines joining (if joining then read else '\n' :: read) rest
  | '\n' :: rest => basicLines joining (if joining then read else '\n' :: read) rest
  | '\\' :: 'u' :: a :: b :: c :: d :: rest => do
    basicLines false ((← codePoint? [a, b, c, d]) :: read) rest
  | '\\' :: 'U' :: a :: b :: c :: d :: e :: f :: g :: h :: rest => do
    basicLines false ((← codePoint? [a, b, c, d, e, f, g, h]) :: read) rest
  | '\\' :: c :: rest =>
    if joinsLines (c :: rest) then basicLines true read (c :: rest)
    else do basicLines false ((← escape? c) :: read) rest
  | c :: rest =>
    if joining && isBlank c then basicLines true read rest
    else if isCommentChar c then basicLines false (c :: read) rest
    else none

/-- The rest of a literal string of several lines. -/
def literalLines (read : List Char) : List Char → Option (List Char × List Char)
  | [] => none
  | '\'' :: '\'' :: '\'' :: '\'' :: '\'' :: rest => some (('\'' :: '\'' :: read).reverse, rest)
  | '\'' :: '\'' :: '\'' :: '\'' :: rest => some (('\'' :: read).reverse, rest)
  | '\'' :: '\'' :: '\'' :: rest => some (read.reverse, rest)
  | '\r' :: '\n' :: rest => literalLines ('\n' :: read) rest
  | '\n' :: rest => literalLines ('\n' :: read) rest
  | c :: rest => if isCommentChar c then literalLines (c :: read) rest else none

/-- A line end right after the opening quotes is not part of the string. -/
def skipFirstLineEnd (text : List Char) : List Char :=
  (lineEnd? text).getD text

/-- A string of any kind, from its opening quotes on. -/
def string? : List Char → Option (List Char × List Char)
  | '"' :: '"' :: '"' :: rest => basicLines false [] (skipFirstLineEnd rest)
  | '"' :: rest => basicString [] rest
  | '\'' :: '\'' :: '\'' :: rest => literalLines [] (skipFirstLineEnd rest)
  | '\'' :: rest => literalString [] rest
  | _ => none

/-- A string of one line, as keys may be written. -/
def lineString? : List Char → Option (List Char × List Char)
  | '"' :: rest => basicString [] rest
  | '\'' :: rest => literalString [] rest
  | _ => none

/-- A character of a key without quotes. -/
def isBareKeyChar (c : Char) : Bool :=
  c.isAlphanum || c = '_' || c = '-'

/-- One name of a key. -/
def name? (text : List Char) : Option (List Char × List Char) :=
  match lineString? text with
  | some read => some read
  | none =>
    let name := text.takeWhile isBareKeyChar
    if name.isEmpty then none else some (name, text.dropWhile isBareKeyChar)

/-- The most names that one key may have. -/
def maxKeyLength : Nat :=
  79

/-- The names of a key, with points between them. -/
def key? : Nat → List Char → Option (List String × List Char)
  | 0, _ => none
  | budget + 1, text => do
    let (name, rest) ← name? (skipBlanks text)
    match skipBlanks rest with
    | '.' :: rest =>
      let (names, rest) ← key? budget rest
      return (String.ofList name :: names, rest)
    | rest => return ([String.ofList name], rest)

end CheckHarness.Toml
