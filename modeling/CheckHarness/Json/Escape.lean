import CheckHarness.Json.Token

namespace CheckHarness.Json

def hexValue (byte : UInt8) : Nat :=
  if byte ≤ 0x39 then byte.toNat - 0x30 else if byte ≤ 0x46 then byte.toNat - 0x37 else byte.toNat - 0x57

def hexUnit (a b c d : UInt8) : Nat :=
  ((hexValue a * 16 + hexValue b) * 16 + hexValue c) * 16 + hexValue d

def isHighSurrogate (unit : Nat) : Bool :=
  0xD800 ≤ unit && unit < 0xDC00

def isLowSurrogate (unit : Nat) : Bool :=
  0xDC00 ≤ unit && unit < 0xE000

/-- The character that a pair of surrogates names. -/
def surrogatePair (high low : Nat) : Nat :=
  0x10000 + (high - 0xD800) * 0x400 + (low - 0xDC00)

/-- The byte that a short escape stands for. -/
def shortEscape? (letter : UInt8) : Option UInt8 :=
  match letter with
  | 0x22 => some 0x22
  | 0x5C => some 0x5C
  | 0x2F => some 0x2F
  | 0x62 => some 0x08
  | 0x66 => some 0x0C
  | 0x6E => some 0x0A
  | 0x72 => some 0x0D
  | 0x74 => some 0x09
  | _ => none

/-- The UTF-8 bytes of a code point. -/
def utf8 (codePoint : Nat) : Bytes :=
  Bytes.ofText (String.singleton (Char.ofNat codePoint))

/-- Appends the bytes that a body stands for to those in `read`, which are in reverse. -/
def unescapeOnto (read : Bytes) : Bytes → Option Bytes
  | [] => some read.reverse
  | 0x5C :: 0x75 :: a :: b :: c :: d :: rest =>
    let unit := hexUnit a b c d
    if isHighSurrogate unit then
      match rest with
      | 0x5C :: 0x75 :: e :: f :: g :: h :: rest =>
        let low := hexUnit e f g h
        if isLowSurrogate low then
          unescapeOnto ((utf8 (surrogatePair unit low)).reverse ++ read) rest
        else none
      | _ => none
    else if isLowSurrogate unit then none
    else unescapeOnto ((utf8 unit).reverse ++ read) rest
  | 0x5C :: letter :: rest =>
    match shortEscape? letter with
    | some byte => unescapeOnto (byte :: read) rest
    | none => none
  | byte :: rest => unescapeOnto (byte :: read) rest

/-- The text that a string's body stands for. An escape `\uXXXX` names a UTF-16 unit: a high
surrogate has to be followed by an escaped low one, and the two name one character together. All
other bytes stand for themselves, and the whole has to be UTF-8 in the end. -/
def unescape? (body : Bytes) : Option String :=
  (unescapeOnto [] body).bind Bytes.text?

end CheckHarness.Json
