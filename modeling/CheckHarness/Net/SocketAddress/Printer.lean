import CheckHarness.Net.SocketAddress
import CheckHarness.Text.Numeral

namespace CheckHarness.SocketAddress

/-- A run of groups: where it begins and how long it is. -/
structure Run where
  start : Nat
  length : Nat
  deriving DecidableEq, Repr

/-- The first of the longest runs of zeros, given the run that ends here and the longest so far. -/
def longestRun (index : Nat) (current longest : Run) : List UInt16 → Run
  | [] => longest
  | group :: groups =>
    if group = 0 then
      let current : Run := ⟨if current.length = 0 then index else current.start, current.length + 1⟩
      longestRun (index + 1) current (if longest.length < current.length then current else longest) groups
    else longestRun (index + 1) ⟨0, 0⟩ longest groups

def writeGroup (group : UInt16) : String :=
  String.ofList (Nat.toDigits 16 group.toNat)

def writeGroups (groups : List UInt16) : String :=
  ":".intercalate (groups.map writeGroup)

def writeOctets (octets : List Nat) : String :=
  ".".intercalate (octets.map fun octet => String.ofList (Numeral.digits octet))

def writeAddress6 (groups : List UInt16) : String :=
  match groups with
  | [0, 0, 0, 0, 0, 0xffff, high, low] =>
    "::ffff:" ++ writeOctets [high.toNat / 256, high.toNat % 256, low.toNat / 256, low.toNat % 256]
  | _ =>
    let run := longestRun 0 ⟨0, 0⟩ ⟨0, 0⟩ groups
    if 1 < run.length then
      writeGroups (groups.take run.start) ++ "::" ++ writeGroups (groups.drop (run.start + run.length))
    else writeGroups groups

/-- The canonical text of a socket address. The first of the longest runs of zero groups is written
as `::` if it has at least two groups, and an IPv4 address mapped into IPv6 keeps its own form. -/
def write : SocketAddress → String
  | .v4 octets port => s!"{writeOctets (octets.toList.map UInt8.toNat)}:{port.toNat}"
  | .v6 groups scope port =>
    let scope := if scope = 0 then "" else s!"%{scope.toNat}"
    s!"[{writeAddress6 groups.toList}{scope}]:{port.toNat}"

end CheckHarness.SocketAddress
