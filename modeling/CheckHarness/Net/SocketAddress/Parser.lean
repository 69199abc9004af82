import CheckHarness.Fault
import CheckHarness.Net.SocketAddress
import CheckHarness.Text.Hex
import CheckHarness.Text.Numeral

namespace CheckHarness.SocketAddress

/-- One or more decimal digits of a value below the limit. -/
def decimal? (limit : Nat) (text : List Char) : Option Nat :=
  if text.isEmpty then none else (Numeral.extend limit 0 text).toOption

def port? (text : List Char) : Option UInt16 :=
  (decimal? UInt16.size text).map UInt16.ofNat

/-- An octet has no leading zero. -/
def octet? (text : List Char) : Option UInt8 :=
  if text.head? = some '0' && text != ['0'] then none else (decimal? UInt8.size text).map UInt8.ofNat

def octets? (text : List Char) : Option (Vector UInt8 4) := do
  match ← (text.splitOn '.').mapM octet? with
  | [a, b, c, d] => return #v[a, b, c, d]
  | _ => none

/-- A group has one to four hexadecimal digits. -/
def group? (text : List Char) : Option UInt16 := do
  if text.isEmpty || 4 < text.length then none
  else
    let digits ← text.mapM Hex.value?
    return UInt16.ofNat (digits.foldl (fun value digit => value * 16 + digit) 0)

/-- The group that two octets make. -/
def pair (high low : UInt8) : UInt16 :=
  UInt16.ofNat (high.toNat * 256 + low.toNat)

/-- Groups from pieces of text; where it is allowed, the last piece may be an IPv4 address. -/
def groupsOfPieces? (embedded : Bool) : List (List Char) → Option (List UInt16)
  | [] => some []
  | [piece] =>
    match group? piece with
    | some group => some [group]
    | none => do
      if embedded then
        let octets ← octets? piece
        return [pair octets[0] octets[1], pair octets[2] octets[3]]
      else none
  | piece :: pieces => do return (← group? piece) :: (← groupsOfPieces? embedded pieces)

/-- The groups of one side of an address; an empty side has none. -/
def groups? (embedded : Bool) (text : List Char) : Option (List UInt16) :=
  if text.isEmpty then some [] else groupsOfPieces? embedded (text.splitOn ':')

/-- The text before and after the first `::`. -/
def splitAtGap : List Char → Option (List Char × List Char)
  | ':' :: ':' :: rest => some ([], rest)
  | c :: rest => (splitAtGap rest).map fun sides => (c :: sides.1, sides.2)
  | [] => none

/-- Exactly eight groups. -/
def ofGroups? (groups : List UInt16) : Option (Vector UInt16 8) :=
  if h : groups.length = 8 then some ⟨groups.toArray, by simp [h]⟩ else none

def address6? (text : List Char) : Option (Vector UInt16 8) :=
  match splitAtGap text with
  | none => do ofGroups? (← groups? true text)
  | some (left, right) => do
    let left ← groups? false left
    let right ← groups? true right
    if left.length + right.length < 8 then
      ofGroups? (left ++ List.replicate (8 - left.length - right.length) 0 ++ right)
    else none

/-- An address and its scope. -/
def scoped6? (text : List Char) : Option (Vector UInt16 8 × UInt32) :=
  match text.splitOn '%' with
  | [address] => do return (← address6? address, 0)
  | [address, scope] => do return (← address6? address, UInt32.ofNat (← decimal? UInt32.size scope))
  | _ => none

def ofChars? : List Char → Option SocketAddress
  | '[' :: rest => do
    match rest.splitOn ']' with
    | [inner, ':' :: port] =>
      let (groups, scope) ← scoped6? inner
      return .v6 groups scope (← port? port)
    | _ => none
  | text => do
    match text.splitOn ':' with
    | [address, port] => return .v4 (← octets? address) (← port? port)
    | _ => none

/-- Reads `a.b.c.d:port`, or `[groups]:port` with an optional scope after a percent sign. In an IPv6
address `::` stands for one or more groups of zeros and occurs at most once; its last two groups may
be written as an IPv4 address. -/
def ofText? (text : String) : Option SocketAddress :=
  ofChars? text.toList

/-- Why a text is no socket address. -/
def badSyntax : String :=
  "invalid socket address syntax"

/-- Reads an address that comes from the configuration. -/
def parse (text : String) : Except Fault SocketAddress :=
  match ofText? text with
  | some address => .ok address
  | none => .error (.ofAddress badSyntax)

end CheckHarness.SocketAddress
