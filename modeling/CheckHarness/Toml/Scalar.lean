import CheckHarness.Text.Numeral
import CheckHarness.Toml.Lexical
import CheckHarness.Toml.Value

namespace CheckHarness.Toml

/-- Digits of a numeral: underscores may stand between two digits only. -/
def joinedDigits? (isDigit : Char → Bool) : List Char → Option (List Char)
  | [] => none
  | [c] => if isDigit c then some [c] else none
  | c :: '_' :: rest => if isDigit c then (joinedDigits? isDigit rest).map (c :: ·) else none
  | c :: rest => if isDigit c then (joinedDigits? isDigit rest).map (c :: ·) else none

def ofDigits (base : Nat) (digits : List Char) : Nat :=
  digits.foldl (fun value c => value * base + (Hex.value? c).getD 0) 0

def splitSign : List Char → Bool × List Char
  | '-' :: rest => (true, rest)
  | '+' :: rest => (false, rest)
  | text => (false, text)

/-- The digits of a decimal integer without its sign; it has no superfluous leading zero. -/
def decimalDigits? (text : List Char) : Option (List Char) := do
  let digits ← joinedDigits? Char.isDigit text
  if text.head? = some '0' && text != ['0'] then none else return digits

def signed (negative : Bool) (n : Nat) : Int :=
  if negative then -(n : Int) else n

/-- Integers fit sixty-four bits with a sign. -/
def checkInteger (value : Int) : Option Int :=
  if -integerBound ≤ value ∧ value < integerBound then some value else none

def based? (base : Nat) (isDigit : Char → Bool) (text : List Char) : Option Int := do
  checkInteger (ofDigits base (← joinedDigits? isDigit text))

def integer? (text : List Char) : Option Int :=
  match text with
  | '0' :: 'x' :: digits => based? 16 (fun c => (Hex.value? c).isSome) digits
  | '0' :: 'o' :: digits => based? 8 (fun c => '0' ≤ c && c ≤ '7') digits
  | '0' :: 'b' :: digits => based? 2 (fun c => c = '0' || c = '1') digits
  | _ => do
    let (negative, digits) := splitSign text
    checkInteger (signed negative (ofDigits 10 (← decimalDigits? digits)))

/-- The exponent after its letter, with any leading zeros. -/
def exponent? (text : List Char) : Option Int := do
  let (negative, digits) := splitSign text
  return signed negative (ofDigits 10 (← joinedDigits? Char.isDigit digits))

/-- The least number that rounds to infinity in double precision. -/
def infinityBound : Nat :=
  (1 <<< 1024) - (1 <<< 970)

/-- Whether `digits * 10 ^ exponent` is too large for double precision. -/
def overflows (digits : List Char) (exponent : Int) : Bool :=
  let digits := digits.dropWhile (· = '0')
  let magnitude := digits.length + exponent
  if digits.isEmpty || magnitude < 300 then false
  else if 400 < magnitude then true
  else if 0 ≤ exponent then infinityBound ≤ ofDigits 10 digits * Nat.pow 10 exponent.toNat
  else infinityBound * Nat.pow 10 (-exponent).toNat ≤ ofDigits 10 digits

/-- Whether a text is a float: a whole part, then a fraction, an exponent or both. One that is
larger than every finite double is refused. -/
def isFloat (text : List Char) : Bool :=
  let (negative, unsigned) := splitSign text
  if unsigned = "inf".toList || unsigned = "nan".toList then true
  else
    let isLetter := fun c => c = 'e' || c = 'E'
    let mantissa := unsigned.takeWhile fun c => !isLetter c
    let whole := mantissa.takeWhile (· != '.')
    let fraction? : Option (List Char) :=
      match mantissa.dropWhile (· != '.') with
      | '.' :: fraction => joinedDigits? Char.isDigit fraction
      | _ => some []
    let exponent? : Option Int :=
      match unsigned.dropWhile fun c => !isLetter c with
      | _ :: exponent => exponent? exponent
      | [] => some 0
    match decimalDigits? whole, fraction?, exponent? with
    | some whole, some fraction, some exponent =>
      unsigned.any (fun c => c = '.' || isLetter c) &&
        (negative || !overflows (whole ++ fraction) (exponent - fraction.length))
    | _, _, _ => false

/-- A number of exactly so many digits within bounds. -/
def twoDigits? (low high : Nat) (a b : Char) : Option Nat :=
  if a.isDigit && b.isDigit then
    let n := ofDigits 10 [a, b]
    if low ≤ n ∧ n ≤ high then some n else none
  else none

def daysOfMonth (year month : Nat) : Nat :=
  if month = 2 then if year % 4 = 0 ∧ (year % 100 ≠ 0 ∨ year % 400 = 0) then 29 else 28
  else if [4, 6, 9, 11].contains month then 30 else 31

def isDate (text : List Char) : Bool :=
  match text with
  | [a, b, c, d, '-', m, n, '-', x, y] =>
    [a, b, c, d].all Char.isDigit &&
      match twoDigits? 1 12 m n with
      | some month => (twoDigits? 1 (daysOfMonth (ofDigits 10 [a, b, c, d]) month) x y).isSome
      | none => false
  | _ => false

def isOffset : List Char → Bool
  | [] => true
  | ['Z'] | ['z'] => true
  | [sign, a, b, ':', c, d] =>
    (sign = '+' || sign = '-') && (twoDigits? 0 23 a b).isSome && (twoDigits? 0 59 c d).isSome
  | _ => false

/-- Whether a text is a time of day, with an offset where one is allowed. -/
def isTime (offset : Bool) (text : List Char) : Bool :=
  match text with
  | a :: b :: ':' :: c :: d :: ':' :: e :: f :: rest =>
    (twoDigits? 0 23 a b).isSome && (twoDigits? 0 59 c d).isSome && (twoDigits? 0 60 e f).isSome &&
      match rest with
      | '.' :: fraction =>
        !(fraction.takeWhile Char.isDigit).isEmpty &&
          (let rest := fraction.dropWhile Char.isDigit
           if offset then isOffset rest else rest.isEmpty)
      | rest => if offset then isOffset rest else rest.isEmpty
  | _ => false

def isDatetime (text : List Char) : Bool :=
  isTime false text || isDate text ||
    isDate (text.take 10) &&
      match text.drop 10 with
      | separator :: time => (separator = 'T' || separator = 't' || separator = ' ') && isTime true time
      | [] => false

/-- The value of a word: a boolean, an integer, a float or a date. The word has to be of exactly one
of these forms. -/
def scalar? (word : List Char) : Option Value :=
  if word = "true".toList then some (.boolean true)
  else if word = "false".toList then some (.boolean false)
  else if isDatetime word then some (.datetime (String.ofList word))
  else if isFloat word then some (.float (String.ofList word))
  else (integer? word).map .integer

/-- A character of a word. -/
def isWordChar (c : Char) : Bool :=
  c.isAlphanum || c = '+' || c = '-' || c = '_' || c = '.' || c = ':'

/-- Splits off a word. After a date one blank belongs to it if a time follows. -/
def splitWord (text : List Char) : List Char × List Char :=
  let word := text.takeWhile isWordChar
  match text.dropWhile isWordChar with
  | ' ' :: a :: b :: ':' :: rest =>
    if isDate word && a.isDigit && b.isDigit then
      let time := a :: b :: ':' :: rest
      (word ++ ' ' :: time.takeWhile isWordChar, time.dropWhile isWordChar)
    else (word, ' ' :: a :: b :: ':' :: rest)
  | rest => (word, rest)

end CheckHarness.Toml
