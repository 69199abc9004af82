import CheckHarness.Text.Bytes

namespace CheckHarness.Json

/-- A token of a JSON text. Strings keep their body as it was written: escapes have their form
checked when they are read, but neither their meaning nor the encoding of the other bytes is, so a
string that nobody looks at may hold any bytes at all. -/
inductive Token where
  | openBrace
  | closeBrace
  | openBracket
  | closeBracket
  | colon
  | comma
  | null
  | true
  | false
  /-- A number as it was written. -/
  | number (lexeme : Bytes)
  /-- A string without its quotes, as it was written. -/
  | string (body : Bytes)
  deriving DecidableEq, Repr

/-- How far a number has been read. -/
inductive NumberPhase where
  /-- After the minus sign. -/
  | sign
  /-- After a leading zero, which no digit may follow. -/
  | zero
  | whole
  /-- After the point. -/
  | point
  | fraction
  /-- After the letter of the exponent. -/
  | letter
  | exponentSign
  | exponent
  deriving DecidableEq, Repr

/-- How far a string has been read. -/
inductive StringPhase where
  | plain
  /-- After a backslash. -/
  | escape
  /-- Inside a `\u` escape, with this many hexadecimal digits to come. -/
  | hex (missing : Nat)
  deriving DecidableEq, Repr

/-- What the bytes since the last complete token may become. -/
inductive Partial where
  | nothing
  /-- A literal whose remaining letters are known. -/
  | word (rest : Bytes) (token : Token)
  /-- A number; the bytes read so far are in reverse. -/
  | number (phase : NumberPhase) (read : Bytes)
  /-- A string; the bytes read so far are in reverse. -/
  | string (phase : StringPhase) (read : Bytes)
  deriving DecidableEq, Repr

/-- The complete tokens, the last one first, and the unfinished one. A text is read one byte at a
time, and the unfinished token says what the bytes since the last complete one may still become. -/
structure Lexer where
  tokens : List Token
  pending : Partial
  deriving DecidableEq, Repr

namespace Lexer

def start : Lexer :=
  ⟨[], .nothing⟩

def isBlank (byte : UInt8) : Bool :=
  byte == 0x20 || byte == 0x0A || byte == 0x0D || byte == 0x09

def isDigit (byte : UInt8) : Bool :=
  0x30 ≤ byte && byte ≤ 0x39

def isHexDigit (byte : UInt8) : Bool :=
  isDigit byte || (0x41 ≤ byte && byte ≤ 0x46) || (0x61 ≤ byte && byte ≤ 0x66)

/-- The letters that stand for themselves after a backslash; `u` opens a longer escape. -/
def isShortEscape (byte : UInt8) : Bool :=
  [0x22, 0x5C, 0x2F, 0x62, 0x66, 0x6E, 0x72, 0x74].contains byte

/-- The phase of a number after one more byte, or nothing if the byte is not part of it. -/
def NumberPhase.next? (phase : NumberPhase) (byte : UInt8) : Option NumberPhase :=
  match phase with
  | .sign => if byte == 0x30 then some .zero else if isDigit byte then some .whole else none
  | .zero =>
    if byte == 0x2E then some .point
    else if byte == 0x65 || byte == 0x45 then some .letter else none
  | .whole =>
    if isDigit byte then some .whole
    else if byte == 0x2E then some .point
    else if byte == 0x65 || byte == 0x45 then some .letter else none
  | .point => if isDigit byte then some .fraction else none
  | .fraction =>
    if isDigit byte then some .fraction
    else if byte == 0x65 || byte == 0x45 then some .letter else none
  | .letter =>
    if isDigit byte then some .exponent
    else if byte == 0x2B || byte == 0x2D then some .exponentSign else none
  | .exponentSign => if isDigit byte then some .exponent else none
  | .exponent => if isDigit byte then some .exponent else none

/-- Whether a number may end in this phase. -/
def NumberPhase.isComplete : NumberPhase → Bool
  | .zero | .whole | .fraction | .exponent => true
  | _ => false

/-- The phase of a string after one more byte that does not end it. -/
def StringPhase.next? (phase : StringPhase) (byte : UInt8) : Option StringPhase :=
  match phase with
  | .plain => if byte == 0x5C then some .escape else if byte < 0x20 then none else some .plain
  | .escape =>
    if byte == 0x75 then some (.hex 3) else if isShortEscape byte then some .plain else none
  | .hex 0 => if isHexDigit byte then some .plain else none
  | .hex (missing + 1) => if isHexDigit byte then some (.hex missing) else none

/-- The first byte of a token, or a blank between tokens. -/
def begin (tokens : List Token) (byte : UInt8) : Option Lexer :=
  if isBlank byte then some ⟨tokens, .nothing⟩
  else if byte == 0x7B then some ⟨.openBrace :: tokens, .nothing⟩
  else if byte == 0x7D then some ⟨.closeBrace :: tokens, .nothing⟩
  else if byte == 0x5B then some ⟨.openBracket :: tokens, .nothing⟩
  else if byte == 0x5D then some ⟨.closeBracket :: tokens, .nothing⟩
  else if byte == 0x3A then some ⟨.colon :: tokens, .nothing⟩
  else if byte == 0x2C then some ⟨.comma :: tokens, .nothing⟩
  else if byte == 0x6E then some ⟨tokens, .word [0x75, 0x6C, 0x6C] .null⟩
  else if byte == 0x74 then some ⟨tokens, .word [0x72, 0x75, 0x65] .true⟩
  else if byte == 0x66 then some ⟨tokens, .word [0x61, 0x6C, 0x73, 0x65] .false⟩
  else if byte == 0x22 then some ⟨tokens, .string .plain []⟩
  else if byte == 0x2D then some ⟨tokens, .number .sign [byte]⟩
  else if byte == 0x30 then some ⟨tokens, .number .zero [byte]⟩
  else if isDigit byte then some ⟨tokens, .number .whole [byte]⟩
  else none

def step (lexer : Lexer) (byte : UInt8) : Option Lexer :=
  match lexer.pending with
  | .nothing => begin lexer.tokens byte
  | .word [] token => begin (token :: lexer.tokens) byte
  | .word (letter :: rest) token =>
    if byte != letter then none
    else if rest.isEmpty then some ⟨token :: lexer.tokens, .nothing⟩
    else some ⟨lexer.tokens, .word rest token⟩
  | .number phase read =>
    match NumberPhase.next? phase byte with
    | some next => some ⟨lexer.tokens, .number next (byte :: read)⟩
    | none =>
      if NumberPhase.isComplete phase then begin (.number read.reverse :: lexer.tokens) byte
      else none
  | .string phase read =>
    if phase = .plain && byte == 0x22 then some ⟨.string read.reverse :: lexer.tokens, .nothing⟩
    else (StringPhase.next? phase byte).map fun next => ⟨lexer.tokens, .string next (byte :: read)⟩

/-- The tokens, in order, if the text may end here. -/
def finish (lexer : Lexer) : Option (List Token) :=
  match lexer.pending with
  | .nothing => some lexer.tokens.reverse
  | .number phase read =>
    if NumberPhase.isComplete phase then some (.number read.reverse :: lexer.tokens).reverse else none
  | _ => none

end Lexer

/-- The tokens of a text, or nothing if it is not made of tokens and blanks. -/
def tokens? (text : Bytes) : Option (List Token) :=
  (text.foldlM Lexer.step Lexer.start).bind Lexer.finish

end CheckHarness.Json
