import CheckHarness.Pattern.Basic
import CheckHarness.Text.Alphanumeric
import CheckHarness.Text.Blank
import CheckHarness.Text.Hex

namespace CheckHarness.Pattern

/-- The text behind blanks and comments. A comment begins with a number sign and ends its line. -/
def skipBlanks (inComment : Bool) : List Char → List Char
  | [] => []
  | c :: rest =>
    if inComment then skipBlanks (c != '\n') rest
    else if Text.isBlank c then skipBlanks false rest
    else if c = '#' then skipBlanks true rest
    else c :: rest

/-- The text where the next item begins; `spaced` patterns may have blanks before it. -/
def skip (spaced : Bool) (text : List Char) : List Char :=
  if spaced then skipBlanks false text else text

/-- The next character that counts. Of a comment only its beginning is passed over. -/
def peek? (spaced : Bool) (text : List Char) : Option Char :=
  if spaced then
    match text.dropWhile Text.isBlank with
    | '#' :: rest => (rest.dropWhile Text.isBlank).head?
    | rest => rest.head?
  else text.head?

/-- A number of hexadecimal digits. -/
def hexDigits? (spaced : Bool) : Nat → Nat → List Char → Option (Nat × List Char)
  | 0, value, text => some (value, text)
  | n + 1, value, text =>
    match skip spaced text with
    | [] => none
    | c :: rest => do hexDigits? spaced n (value * 16 + (← Hex.value? c)) rest

/-- The character with a code point that is written in so many digits. -/
def codePoint? (spaced : Bool) (width : Nat) (text : List Char) : Option (Char × List Char) := do
  let (value, rest) ← hexDigits? spaced width 0 text
  if value.isValidChar then return (Char.ofNat value, rest) else none

/-- What a backslash begins. -/
inductive Escape where
  | literal (literal : Literal)
  | shorthand (negated : Bool)
  | assertion (aboutWords : Bool)
  deriving DecidableEq, Repr

/-- The characters that an escaped letter can stand for. -/
def letterEscapes : List (Char × Char) :=
  [('a', '\x07'), ('f', '\x0c'), ('t', '\t'), ('n', '\n'), ('r', '\r'), ('v', '\x0b')]

/-- The escape after its backslash. ASCII characters other than letters, digits and angle brackets
stand for themselves. No properties of characters can be named. -/
def escape? (spaced : Bool) : List Char → Option (Escape × List Char)
  | [] => none
  | c :: rest =>
    if c = 'x' then (codePoint? spaced 2 rest).map fun read => (.literal ⟨read.1, true⟩, read.2)
    else if c = 'u' then (codePoint? spaced 4 rest).map fun read => (.literal ⟨read.1, false⟩, read.2)
    else if c = 'U' then (codePoint? spaced 8 rest).map fun read => (.literal ⟨read.1, false⟩, read.2)
    else if c = 'd' || c = 's' || c = 'w' then some (.shorthand false, rest)
    else if c = 'D' || c = 'S' || c = 'W' then some (.shorthand true, rest)
    else if c = 'A' || c = 'z' then some (.assertion false, rest)
    else if c = 'b' || c = 'B' || c = '<' || c = '>' then some (.assertion true, rest)
    else if c.toNat < 0x80 && !c.isAlphanum then some (.literal ⟨c, false⟩, rest)
    else (letterEscapes.lookup c).map fun value => (.literal ⟨value, false⟩, rest)

def flags : List (Char × Flag) :=
  [('i', .ignoresCase), ('m', .multiLine), ('s', .dotIsAny), ('U', .swapsGreed), ('u', .unicode),
    ('R', .crlf), ('x', .spaced)]

/-- The flags up to a closing parenthesis or colon, which stays. Those behind a hyphen are switched
off; none may be named twice. -/
def switches? (on : Bool) (read : Switches) : List Char → Option (Switches × List Char)
  | [] => none
  | c :: rest =>
    if c = ')' || c = ':' then some (read.reverse, c :: rest)
    else if c = '-' then
      if on && rest.head? != some ')' && rest.head? != some ':' then switches? false read rest
      else none
    else
      match flags.lookup c with
      | none => none
      | some flag =>
        if (read.map Prod.fst).contains flag then none else switches? on ((flag, on) :: read) rest

/-- The characters of a group's name, of which the first has further limits. -/
def isNameChar (first : Bool) (c : Char) : Bool :=
  c = '_' ||
    if first then Text.isAlphabetic c
    else c = '.' || c = '[' || c = ']' || Text.isAlphanumeric c

/-- The name of a group up to its closing angle bracket. -/
def name? (text : List Char) : Option (List Char × List Char) :=
  let name := text.takeWhile (· != '>')
  match name, text.dropWhile (· != '>') with
  | c :: others, _ :: rest =>
    if isNameChar true c && others.all (isNameChar false) then some (name, rest) else none
  | _, _ => none

/-- What an opening parenthesis begins. -/
inductive Opening where
  | group (switches : Switches) (name : Option (List Char))
  | switch (switches : Switches)
  deriving DecidableEq, Repr

/-- The opening of a group after its parenthesis. Nothing can be asked about what lies around a
place. -/
def opening? : List Char → Option (Opening × List Char)
  | '?' :: 'P' :: '<' :: rest | '?' :: '<' :: rest =>
    (name? rest).map fun read => (.group [] (some read.1), read.2)
  | '?' :: rest =>
    match switches? true [] rest with
    | some (switches, ':' :: rest) => some (.group switches none, rest)
    | some (switches, _ :: rest) => if switches.isEmpty then none else some (.switch switches, rest)
    | _ => none
  | text => some (.group [] none, text)

end CheckHarness.Pattern
