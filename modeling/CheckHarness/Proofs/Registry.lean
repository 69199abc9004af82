import CheckHarness.Proofs.Lookup
import CheckHarness.Proofs.ServiceInfo
import CheckHarness.Registry

namespace CheckHarness

namespace Registry

variable {registry : Registry} {name other : String} {constructor : Constructor}
  {entries : List (String × Constructor)} {calls more : List (String × Constructor)}
  {config : Config}

/-- The registry after a registration; one that is refused changes nothing. -/
def attempt (registry : Registry) (call : String × Constructor) : Registry :=
  match registry.register call.1 call.2 with
  | .ok next => next
  | .error _ => registry

/-- The registry after several registrations in their order. -/
def after (registry : Registry) (calls : List (String × Constructor)) : Registry :=
  calls.foldl attempt registry

/-- A name that is taken is refused. -/
theorem register_of_mem (hmem : name ∈ registry.names) :
    registry.register name constructor = .error (alreadyRegistered name) :=
  dif_pos hmem

/-- A new name is accepted and put in its place. -/
theorem register_of_not_mem (constructor : Constructor) (hnew : name ∉ registry.names) :
    ∃ next : Registry, registry.register name constructor = .ok next ∧
      next.entries = place name constructor registry.entries :=
  ⟨_, dif_neg hnew, rfl⟩

/-- A registration is refused just if the name is taken. -/
theorem register_eq_error_iff :
    (∃ fault, registry.register name constructor = .error fault) ↔ name ∈ registry.names := by
  by_cases hmem : name ∈ registry.names
  · exact iff_of_true ⟨_, register_of_mem hmem⟩ hmem
  · obtain ⟨next, hnext, -⟩ := register_of_not_mem constructor hmem
    refine iff_of_false ?_ hmem
    rintro ⟨fault, hfault⟩
    rw [hnext] at hfault
    cases hfault

/-- A refused registration changes nothing. -/
theorem attempt_of_mem (hmem : name ∈ registry.names) :
    registry.attempt (name, constructor) = registry := by
  rw [attempt, register_of_mem hmem]

/-- A new entry does not get in the way of the others. -/
theorem lookup_place_of_ne (hne : other ≠ name) :
    (place name constructor entries).lookup other = entries.lookup other := by
  induction entries with
  | nil => rw [place, lookup_cons_of_ne hne]
  | cons entry entries ih =>
    rw [place]
    split
    · exact lookup_cons_of_ne hne
    · rw [List.lookup_cons, ih, List.lookup_cons]

/-- A new entry is found under its name. -/
theorem lookup_place_self (hnew : name ∉ entries.map Prod.fst) :
    (place name constructor entries).lookup name = some constructor := by
  induction entries with
  | nil => exact List.lookup_cons_self
  | cons entry entries ih =>
    rw [List.map_cons, List.mem_cons, not_or] at hnew
    rw [place]
    split
    · exact List.lookup_cons_self
    · rw [lookup_cons_of_ne hnew.1, ih hnew.2]

theorem find?_eq_none_iff : registry.find? name = none ↔ name ∉ registry.names :=
  lookup_eq_none_iff_notMem

/-- What is there stays, and a new name belongs to its constructor. -/
theorem find?_attempt (registry : Registry) (call : String × Constructor) (name : String) :
    (registry.attempt call).find? name = (registry.find? name).or ([call].lookup name) := by
  obtain ⟨called, constructor⟩ := call
  by_cases hmem : called ∈ registry.names
  · rw [attempt_of_mem hmem]
    by_cases hname : name = called
    · subst hname
      obtain ⟨found, hfound⟩ := Option.ne_none_iff_exists'.mp (mt find?_eq_none_iff.mp (not_not.mpr hmem))
      rw [hfound, Option.some_or]
    · rw [lookup_cons_of_ne hname, List.lookup_nil, Option.or_none]
  · obtain ⟨next, hnext, hentries⟩ := register_of_not_mem constructor hmem
    rw [attempt, hnext]
    dsimp only
    rw [find?, hentries]
    by_cases hname : name = called
    · subst hname
      rw [lookup_place_self hmem, find?_eq_none_iff.mpr hmem, List.lookup_cons_self, Option.none_or]
    · rw [lookup_place_of_ne hname, lookup_cons_of_ne hname, List.lookup_nil, Option.or_none, find?]

theorem after_append (registry : Registry) (calls more : List (String × Constructor)) :
    registry.after (calls ++ more) = (registry.after calls).after more :=
  List.foldl_append

/-- The first registration of a name counts, that of the initial registry before all others. -/
theorem find?_after (registry : Registry) (calls : List (String × Constructor)) (name : String) :
    (registry.after calls).find? name = (registry.entries ++ calls).lookup name := by
  rw [List.lookup_append]
  induction calls generalizing registry with
  | nil => rw [List.lookup_nil, Option.or_none, after, List.foldl_nil, find?]
  | cons call calls ih =>
    have hfirst := registry.find?_attempt call name
    rw [after, List.foldl_cons, ← after, ih, ← find?, hfirst, Option.or_assoc, ← List.lookup_append,
      List.singleton_append, find?]

/-- The names after a history are those before it and those that were registered in it. -/
theorem mem_names_after :
    name ∈ (registry.after calls).names ↔ name ∈ registry.names ∨ name ∈ calls.map Prod.fst := by
  rw [← not_iff_not, ← find?_eq_none_iff, find?_after, lookup_eq_none_iff_notMem, List.map_append,
    List.mem_append, names]

/-- What is found once is found for ever. -/
theorem find?_after_append (hfound : (registry.after calls).find? name = some constructor) :
    (registry.after (calls ++ more)).find? name = some constructor := by
  rw [find?_after] at hfound
  rw [find?_after, ← List.append_assoc, List.lookup_append, hfound, Option.some_or]

/-- The fault of asking for a name that is not registered. -/
def notFound (registry : Registry) (name : String) : Fault :=
  .checkerNotFound name (", ".intercalate registry.names)

/-- Under a name that was never registered nothing is built. -/
theorem build_of_absent (habsent : registry.find? name = none) :
    registry.build name config = .error (registry.notFound name) := by
  rw [build, habsent, notFound]

/-- What a constructor makes is handed out if its description is in order. -/
theorem build_of_present (hfound : registry.find? name = some constructor) :
    registry.build name config =
      constructor config >>= fun checker => checker.info.validate >>= fun _ => .ok checker := by
  rw [build, hfound]
  rfl

/-- What may come of building with a constructor. Its own failure is passed on as it is; otherwise
the checker that it makes has to describe its service completely. -/
inductive Builds (constructor : Constructor) (config : Config) : Except Fault Checker → Prop where
  | failed {fault} (hmade : constructor config = .error fault) :
    Builds constructor config (.error fault)
  | refused {checker condition} (message : String) (hmade : constructor config = .ok checker)
    (hunmet : Condition.FirstUnmet checker.info.conditions condition) :
    Builds constructor config (.error (.validation condition.field message))
  | built {checker} (hmade : constructor config = .ok checker)
    (hcomplete : checker.info.Complete) : Builds constructor config (.ok checker)

/-- Building under a registered name ends in one of the three ways. -/
theorem builds_of_present (config : Config)
    (hfound : registry.find? name = some constructor) :
    Builds constructor config (registry.build name config) := by
  cases hresult : registry.build name config with
  | ok checker =>
    obtain ⟨made, hmade, hchecked⟩ := bind_eq_ok_iff.mp ((build_of_present hfound).symm.trans hresult)
    obtain ⟨_, hvalid, ⟨⟩⟩ := bind_eq_ok_iff.mp hchecked
    exact .built hmade (ServiceInfo.validate_eq_ok_iff.mp hvalid)
  | error fault =>
    rcases bind_eq_error_iff.mp ((build_of_present hfound).symm.trans hresult) with
      hmade | ⟨made, hmade, hchecked⟩
    · exact .failed hmade
    · rcases bind_eq_error_iff.mp hchecked with hinvalid | ⟨_, -, ⟨⟩⟩
      obtain ⟨condition, message, hunmet, rfl⟩ := made.info.decide_validate.exists_blamed hinvalid
      exact .refused message hmade hunmet

/-- A name is not found just if it is absent, apart from a constructor that fails in this way
itself. -/
theorem build_eq_notFound_iff {asked available : String} :
    registry.build name config = .error (.checkerNotFound asked available) ↔
      (name ∉ registry.names ∧ .checkerNotFound asked available = registry.notFound name) ∨
      ∃ constructor, registry.find? name = some constructor ∧
        constructor config = .error (.checkerNotFound asked available) := by
  cases hfound : registry.find? name with
  | none =>
    have habsent := find?_eq_none_iff.mp hfound
    rw [build_of_absent hfound, Except.error.injEq, eq_comm]
    simp [habsent]
  | some constructor =>
    have hpresent : name ∈ registry.names := by
      by_contra habsent
      rw [find?_eq_none_iff.mpr habsent] at hfound
      cases hfound
    have hbuilds := builds_of_present config hfound
    constructor
    · intro hbuild
      rw [hbuild] at hbuilds
      cases hbuilds with
      | failed hmade => exact .inr ⟨constructor, rfl, hmade⟩
    · rintro (⟨habsent, -⟩ | ⟨_, ⟨rfl⟩, hmade⟩)
      · exact absurd hpresent habsent
      · rw [build_of_present hfound, hmade]
        rfl

/-- After any history of registrations the names are in strictly ascending order, and they are those
that were there initially or were ever registered. Each belongs to the constructor that came first,
now and after all that may follow. A registration is refused just if its name is there, and then
changes nothing. An absent name is not found, and the fault says all names; nothing else is told so,
unless a constructor fails in this way itself. What is built under a name that is there comes of its
constructor alone: a checker is handed out only if the constructor makes it and its description is
complete. -/
theorem registrations_decided (registry : Registry) (calls : List (String × Constructor)) :
    (registry.after calls).names.Pairwise (· < ·) ∧
    (∀ name, name ∈ (registry.after calls).names ↔
      name ∈ registry.names ∨ name ∈ calls.map Prod.fst) ∧
    (∀ name, (registry.after calls).find? name = (registry.entries ++ calls).lookup name) ∧
    (∀ name constructor more, (registry.after calls).find? name = some constructor →
      (registry.after (calls ++ more)).find? name = some constructor) ∧
    (∀ name constructor,
      ((∃ fault, (registry.after calls).register name constructor = .error fault) ↔
        name ∈ (registry.after calls).names) ∧
      (name ∈ (registry.after calls).names →
        registry.after (calls ++ [(name, constructor)]) = registry.after calls)) ∧
    ∀ name config,
      (name ∉ (registry.after calls).names →
        (registry.after calls).build name config =
          .error (.checkerNotFound name (", ".intercalate (registry.after calls).names))) ∧
      (∀ asked available,
        (registry.after calls).build name config = .error (.checkerNotFound asked available) →
          name ∉ (registry.after calls).names ∨
          ∃ constructor, (registry.entries ++ calls).lookup name = some constructor ∧
            constructor config = .error (.checkerNotFound asked available)) ∧
      ∀ constructor, (registry.entries ++ calls).lookup name = some constructor →
        Builds constructor config ((registry.after calls).build name config) := by
  refine ⟨(registry.after calls).ascending, fun _ => mem_names_after, registry.find?_after calls,
    fun _ _ _ => find?_after_append, fun name constructor => ⟨register_eq_error_iff, ?_⟩,
    fun name config => ⟨?_, ?_, ?_⟩⟩
  · intro hmem
    rw [after_append]
    exact attempt_of_mem hmem
  · intro habsent
    exact build_of_absent (find?_eq_none_iff.mpr habsent)
  · intro asked available hbuild
    rw [← find?_after]
    exact (build_eq_notFound_iff.mp hbuild).imp_left And.left
  · intro constructor hfirst
    rw [← find?_after] at hfirst
    exact builds_of_present _ hfirst

/-- A checker for a service without a name. -/
def makeNameless : Constructor :=
  fun _ => .ok { info := ⟨"", 1, 1, 1⟩, operation := fun _ _ => .succeed none }

/-- The checkers that are always there, of which no service answers. -/
def silentBuiltins : Registry :=
  builtins fun _ _ _ => .refuses

/-- Registrations of which the second comes too late. -/
def crossedCalls : List (String × Constructor) :=
  [("nameless", makeNameless), ("dummy", makeNameless), ("custom", makeDummy)]

/-- The late registration changes nothing, an unknown name is told with all names in their order,
and what the constructor of a known name makes is handed out only with a complete description. -/
theorem registrations_decided_crossed :
    silentBuiltins.after (crossedCalls.take 2) = silentBuiltins.after (crossedCalls.take 1) ∧
    (silentBuiltins.after crossedCalls).build "nope" .standard =
      .error (.checkerNotFound "nope" "custom, dummy, linestore, nameless") ∧
    Builds makeDummy .standard ((silentBuiltins.after crossedCalls).build "dummy" .standard) ∧
    Builds makeNameless .standard
      ((silentBuiltins.after crossedCalls).build "nameless" .standard) := by
  have hnames : (silentBuiltins.after crossedCalls).names =
      ["custom", "dummy", "linestore", "nameless"] := by decide +kernel
  have hlist : ", ".intercalate ["custom", "dummy", "linestore", "nameless"] =
      "custom, dummy, linestore, nameless" := by decide +kernel
  obtain ⟨-, -, -, -, hregister, -⟩ := registrations_decided silentBuiltins (crossedCalls.take 1)
  obtain ⟨-, -, -, -, -, hbuild⟩ := registrations_decided silentBuiltins crossedCalls
  refine ⟨(hregister "dummy" makeNameless).2 (by decide +kernel), ?_, ?_, ?_⟩
  · rw [← hlist, ← hnames]
    apply (hbuild "nope" .standard).1
    rw [hnames]
    decide
  · exact (hbuild "dummy" .standard).2.2 makeDummy rfl
  · exact (hbuild "nameless" .standard).2.2 makeNameless rfl

end Registry

end CheckHarness
