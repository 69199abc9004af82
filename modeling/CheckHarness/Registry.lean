import CheckHarness.Checker
import CheckHarness.Config
import CheckHarness.LineStore.Checker

namespace CheckHarness

/-- Makes a checker for a configuration. -/
abbrev Constructor := Config → Except Fault Checker

/-- A map from names to constructors of checkers, in the order of the names. No name is ever given a
second constructor. What a constructor makes is handed out only if it describes itself properly. -/
structure Registry where
  entries : List (String × Constructor)
  /-- The names are in strictly ascending order. -/
  ascending : (entries.map Prod.fst).Pairwise (· < ·)

namespace Registry

def empty : Registry :=
  ⟨[], .nil⟩

def names (registry : Registry) : List String :=
  registry.entries.map Prod.fst

def find? (registry : Registry) (name : String) : Option Constructor :=
  registry.entries.lookup name

/-- Puts an entry before the first with a greater name. -/
def place (name : String) (constructor : Constructor) :
    List (String × Constructor) → List (String × Constructor)
  | [] => [(name, constructor)]
  | entry :: entries =>
    if name < entry.1 then (name, constructor) :: entry :: entries
    else entry :: place name constructor entries

theorem mem_place {name other : String} {constructor : Constructor}
    {entries : List (String × Constructor)} :
    other ∈ (place name constructor entries).map Prod.fst ↔
      other = name ∨ other ∈ entries.map Prod.fst := by
  induction entries with
  | nil => simp [place]
  | cons entry entries ih =>
    simp only [place]
    split
    · simp
    · rw [List.map_cons, List.mem_cons, ih, List.map_cons, List.mem_cons, or_left_comm]

/-- A new name keeps the order. -/
theorem ascending_place {name : String} {constructor : Constructor}
    {entries : List (String × Constructor)} (h : (entries.map Prod.fst).Pairwise (· < ·))
    (hname : name ∉ entries.map Prod.fst) :
    ((place name constructor entries).map Prod.fst).Pairwise (· < ·) := by
  induction entries with
  | nil => simp [place]
  | cons entry entries ih =>
    rw [List.map_cons, List.pairwise_cons] at h
    simp only [List.map_cons, List.mem_cons, not_or] at hname
    simp only [place]
    split
    · next hlt =>
      simp only [List.map_cons, List.pairwise_cons, List.mem_cons, forall_eq_or_imp]
      exact ⟨⟨hlt, fun other hother => String.lt_trans hlt (h.1 other hother)⟩, h⟩
    · next hnlt =>
      have hlt : entry.1 < name := String.not_le.1 fun hle =>
        hname.1 (String.le_antisymm hle (String.not_lt.1 hnlt))
      rw [List.map_cons, List.pairwise_cons]
      refine ⟨fun other hother => ?_, ih h.2 hname.2⟩
      rcases mem_place.1 hother with rfl | hmem
      · exact hlt
      · exact h.1 other hmem

/-- The fault of giving a name a second constructor. -/
def alreadyRegistered (name : String) : Fault :=
  .configuration "checker_registry" ("checker '" ++ name ++ "' is already registered")

def register (registry : Registry) (name : String) (constructor : Constructor) :
    Except Fault Registry :=
  if h : name ∈ registry.names then .error (alreadyRegistered name)
  else .ok ⟨place name constructor registry.entries, ascending_place registry.ascending h⟩

/-- The checker that the named constructor makes, if its description holds. -/
def build (registry : Registry) (name : String) (config : Config) : Except Fault Checker := do
  match registry.find? name with
  | none => .error (.checkerNotFound name (", ".intercalate registry.names))
  | some constructor =>
    let checker ← constructor config
    checker.info.validate
    return checker

def dummyName : String :=
  "dummy"

def lineStoreName : String :=
  "linestore"

/-- The constructor of the checker that accepts everything. -/
def makeDummy : Constructor :=
  fun _ => .ok Checker.dummy

/-- The constructor of the checker for line stores on the given network. -/
def makeLineStore (network : String → UInt16 → Bytes → LineStore.Peer) : Constructor :=
  fun config => .ok (LineStore.checker (.ofConfig config) config.servicePort network)

/-- The registry of the checkers that are always there. -/
def builtins (network : String → UInt16 → Bytes → LineStore.Peer) : Registry where
  entries := [(dummyName, makeDummy), (lineStoreName, makeLineStore network)]
  ascending := by
    simp only [List.map_cons, List.map_nil]
    decide +kernel

end Registry

end CheckHarness
