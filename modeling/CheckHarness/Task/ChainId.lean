import CheckHarness.Task.Method
import CheckHarness.Text.Numeral

namespace CheckHarness

/-- The key that ties the tasks of one chain together. It is written `kind_sA_rB_tC_iD`, with the
numbers of a service, a round, a team and a variant. Reading accepts any numeral for each of the
four, so several texts may name one chain; writing has one form. -/
structure ChainId where
  kind : ChainKind
  service : UInt64
  round : UInt64
  team : UInt64
  variant : UInt64
  deriving DecidableEq, Repr

namespace ChainId

/-- One numbered part: its letter, then the number. -/
def part (letter : Char) (n : UInt64) : List Char :=
  '_' :: letter :: Numeral.digits n.toNat

def render (chain : ChainId) : String :=
  String.ofList (chain.kind.name.toList ++ part 's' chain.service ++ part 'r' chain.round ++
    part 't' chain.team ++ part 'i' chain.variant)

/-- The number after its letter. -/
def partValue? (letter : Char) : List Char → Option UInt64
  | c :: digits =>
    if c = letter then (Numeral.parse UInt64.size digits).toOption.map UInt64.ofNat else none
  | [] => none

def ofText? (text : String) : Option ChainId :=
  match text.toList.splitOn '_' with
  | [kind, service, round, team, variant] => do
    return {
      kind := ← ChainKind.ofName? (String.ofList kind)
      service := ← partValue? 's' service
      round := ← partValue? 'r' round
      team := ← partValue? 't' team
      variant := ← partValue? 'i' variant }
  | _ => none

def parse (text : String) : Except Fault ChainId :=
  match ofText? text with
  | some chain => .ok chain
  | none => .error (.validation "taskChainId" ("malformed task chain id '" ++ text ++ "'"))

end ChainId

end CheckHarness
