import CheckHarness.Failure
import CheckHarness.Pattern.Parser
import CheckHarness.Pattern.Support
import CheckHarness.Text.Numeral

namespace CheckHarness.Log

/-- Why a text is not a condition on a field. -/
inductive FieldFault where
  | notAPattern
  /-- The pattern asks for words of other letters than ASCII's. -/
  | wordsBeyondAscii
  deriving DecidableEq, Repr

namespace FieldFault

def message : FieldFault → String
  | .notAPattern => "error building NFA"
  | .wordsBeyondAscii =>
    "unsupported regex feature for DFAs: cannot build DFAs for regexes with Unicode word boundaries; " ++
      "switch to ASCII word boundaries, or heuristically enable Unicode word boundaries or use a " ++
      "different regex engine"

end FieldFault

namespace FieldFilter

/-- Whether a text is an exponent with its letter, or empty. -/
def isExponent : List Char → Bool
  | [] => true
  | e :: '+' :: digits | e :: '-' :: digits =>
    e.toLower = 'e' && !digits.isEmpty && digits.all Char.isDigit
  | e :: digits => e.toLower = 'e' && !digits.isEmpty && digits.all Char.isDigit

/-- Whether a text is a decimal number without a sign; digits may be missing on one side of its
point. -/
def isDecimal (text : List Char) : Bool :=
  let rest := text.dropWhile Char.isDigit
  match rest with
  | '.' :: fraction =>
    (rest.length < text.length || fraction.head?.any Char.isDigit) &&
      isExponent (fraction.dropWhile Char.isDigit)
  | rest => rest.length < text.length && isExponent rest

/-- The numbers that are written as words, in any case. -/
def numberWords : List String :=
  ["inf", "infinity", "nan"]

def isUnsignedNumber (text : List Char) : Bool :=
  isDecimal text || numberWords.contains (String.ofList (text.map Char.toLower))

/-- Whether a text is a number, which may have a sign. -/
def isNumber : List Char → Bool
  | '+' :: text | '-' :: text => isUnsignedNumber text
  | text => isUnsignedNumber text

/-- Passes for a pattern that can be searched for. -/
def checkPattern (text : List Char) : Except FieldFault Unit :=
  match (Pattern.parse? text).map fun pattern => Pattern.Survey.initial.add pattern with
  | none => .error .notAPattern
  | some survey =>
    if !survey.supported then .error .notAPattern
    else if survey.wordsBeyondAscii then .error .wordsBeyondAscii
    else .ok ()

/-- Passes for a condition on the fields of log entries: a name, or a name and after an equals sign
a value, which is a number or a pattern. What follows a second equals sign does not count. -/
def check (text : List Char) : Except FieldFault Unit :=
  match text.dropWhile (· != '=') with
  | [] => .ok ()
  | _ :: rest =>
    let value := rest.takeWhile (· != '=')
    if isNumber value then .ok () else checkPattern value

end FieldFilter

end CheckHarness.Log
