import CheckHarness.Fault
import Mathlib.Data.List.Forall2
import Mathlib.Tactic.ByContra

namespace CheckHarness

/-- Two computations in a row succeed if the first one does and then the second one. -/
theorem bind_eq_ok_iff {ε : Type} {result : Except ε α} {next : α → Except ε β} {value : β} :
    (result >>= next) = .ok value ↔ ∃ a, result = .ok a ∧ next a = .ok value := by
  cases result with
  | ok a => exact ⟨fun h => ⟨a, rfl, h⟩, fun ⟨_, ha, h⟩ => Except.ok.inj ha ▸ h⟩
  | error fault => exact ⟨nofun, fun ⟨_, ha, _⟩ => nomatch ha⟩

variable {result : Except Fault α} {next : α → Except Fault β}

/-- Two computations in a row fail in the first one, or in the second one after the first has
succeeded. -/
theorem bind_eq_error_iff {fault : Fault} :
    (result >>= next) = .error fault ↔
      result = .error fault ∨ ∃ a, result = .ok a ∧ next a = .error fault := by
  cases result with
  | ok a =>
    refine ⟨fun h => .inr ⟨a, rfl, h⟩, ?_⟩
    rintro (ha | ⟨_, ha, h⟩)
    · cases ha
    · cases ha
      exact h
  | error first =>
    refine ⟨fun h => .inl (congrArg Except.error (Except.error.inj h)), ?_⟩
    rintro (h | ⟨_, ha, _⟩)
    · exact congrArg Except.error (Except.error.inj h)
    · cases ha

namespace Fault

/-- A result that fails, if at all, with a fault of the request that was checked. -/
def BlamesRequest (result : Except Fault α) : Prop :=
  ∀ fault, result = .error fault → ∃ field message, fault = .validation field message

/-- Checks in a row blame the request if each of them does. -/
theorem BlamesRequest.bind (hresult : BlamesRequest result)
    (hnext : ∀ a, BlamesRequest (next a)) : BlamesRequest (result >>= next) := by
  intro fault h
  rcases bind_eq_error_iff.mp h with h | ⟨a, -, h⟩
  · exact hresult fault h
  · exact hnext a fault h

theorem blamesRequest_ok (a : α) : BlamesRequest (.ok a : Except Fault α) :=
  nofun

theorem blamesRequest_validation (field message : String) :
    BlamesRequest (.error (.validation field message) : Except Fault α) := by
  intro fault h
  exact ⟨field, message, (Except.error.inj h).symm⟩

variable {checks : List (Bool × Fault)}

/-- The fault that is found belongs to a check that failed. -/
theorem mem_of_first? {fault : Fault} (hfirst : first? checks = some fault) :
    (true, fault) ∈ checks := by
  rw [first?, Option.map_eq_some_iff] at hfirst
  obtain ⟨⟨found, other⟩, hfind, rfl⟩ := hfirst
  have hfound : found = true := List.find?_some hfind
  rw [← hfound]
  exact List.mem_of_find?_eq_some hfind

/-- A value passes if it passes every check. -/
theorem rejectFirst_eq_ok_iff :
    rejectFirst checks = .ok () ↔ ∀ check ∈ checks, check.1 = false := by
  have hfirst : first? checks = none ↔ ∀ check ∈ checks, check.1 = false := by
    simp [first?]
  rw [← hfirst, rejectFirst]
  cases first? checks <;> simp

/-- Checks that find nothing may be left out. -/
theorem rejectFirst_append_of_clear {more : List (Bool × Fault)}
    (hclear : ∀ check ∈ more, check.1 = false) :
    rejectFirst (checks ++ more) = rejectFirst checks := by
  have hmore : more.find? Prod.fst = none := by
    simpa [List.find?_eq_none] using hclear
  have hfirst : first? (checks ++ more) = first? checks := by
    rw [first?, List.find?_append, hmore, Option.or_none, first?]
  rw [rejectFirst, hfirst, rejectFirst]

/-- Checks whose faults name a member blame the request. -/
theorem BlamesRequest.rejectFirst
    (hchecks : ∀ check ∈ checks, ∃ field message, check.2 = .validation field message) :
    BlamesRequest (rejectFirst checks) := by
  rw [Fault.rejectFirst]
  cases hfirst : first? checks with
  | none => exact blamesRequest_ok ()
  | some fault =>
    obtain ⟨field, message, hfault⟩ := hchecks _ (mem_of_first? hfirst)
    rw [show fault = .validation field message from hfault]
    exact blamesRequest_validation field message

end Fault

/-- A condition, said apart from the check that looks at it, with the member that it is about. -/
structure Condition where
  field : String
  met : Prop

namespace Condition

/-- The condition is the first of the list that is not met. -/
inductive FirstUnmet : List Condition → Condition → Prop where
  | here {condition conditions} (hunmet : ¬ condition.met) :
    FirstUnmet (condition :: conditions) condition
  | later {condition conditions other} (hmet : condition.met)
    (hrest : FirstUnmet conditions other) : FirstUnmet (condition :: conditions) other

variable {conditions more : List Condition} {condition : Condition}

/-- Of conditions that are not all met, one is the first that is not. -/
theorem exists_firstUnmet (hunmet : ¬ ∀ condition ∈ conditions, condition.met) :
    ∃ condition, FirstUnmet conditions condition := by
  induction conditions with
  | nil => exact absurd (List.forall_mem_nil _) hunmet
  | cons condition conditions ih =>
    by_cases hmet : condition.met
    · rw [List.forall_mem_cons, not_and] at hunmet
      obtain ⟨other, hother⟩ := ih (hunmet hmet)
      exact ⟨other, .later hmet hother⟩
    · exact ⟨condition, .here hmet⟩

/-- The first unmet condition of two lists is in the first list, or in the second one if all of the
first are met. -/
theorem firstUnmet_append_iff :
    FirstUnmet (conditions ++ more) condition ↔
      FirstUnmet conditions condition ∨
        (∀ condition ∈ conditions, condition.met) ∧ FirstUnmet more condition := by
  induction conditions with
  | nil =>
    refine ⟨fun hfirst => .inr ⟨List.forall_mem_nil _, hfirst⟩, ?_⟩
    rintro (hfirst | ⟨-, hfirst⟩)
    · nomatch hfirst
    · exact hfirst
  | cons first conditions ih =>
    rw [List.cons_append, List.forall_mem_cons]
    constructor
    · intro hfirst
      cases hfirst with
      | here hunmet => exact .inl (.here hunmet)
      | later hmet hrest =>
        rcases ih.mp hrest with hrest | ⟨hall, hrest⟩
        · exact .inl (.later hmet hrest)
        · exact .inr ⟨⟨hmet, hall⟩, hrest⟩
    · rintro (hfirst | ⟨⟨hmet, hall⟩, hfirst⟩)
      · cases hfirst with
        | here hunmet => exact .here hunmet
        | later hmet hrest => exact .later hmet (ih.mpr (.inl hrest))
      · exact .later hmet (ih.mpr (.inr ⟨hall, hfirst⟩))

/-- The check passes if all conditions are met; otherwise it blames the member of the first that is
not. -/
structure Decide (conditions : List Condition) (result : Except Fault α) : Prop where
  passes : (∀ condition ∈ conditions, condition.met) → ∃ a, result = .ok a
  blames : ∀ condition, FirstUnmet conditions condition →
    ∃ message, result = .error (.validation condition.field message)

theorem Decide.ok (a : α) : Decide [] (.ok a) :=
  ⟨fun _ => ⟨a, rfl⟩, fun _ hfirst => nomatch hfirst⟩

/-- What is accepted meets all conditions. -/
theorem Decide.all_met (hresult : Decide conditions result) {a : α} (hok : result = .ok a) :
    ∀ condition ∈ conditions, condition.met := by
  by_contra hunmet
  obtain ⟨condition, hfirst⟩ := exists_firstUnmet hunmet
  obtain ⟨message, herror⟩ := hresult.blames condition hfirst
  rw [hok] at herror
  cases herror

/-- A refusal names the member of the first condition that is not met. -/
theorem Decide.exists_blamed (hresult : Decide conditions result) {fault : Fault}
    (hfault : result = .error fault) :
    ∃ condition message, FirstUnmet conditions condition ∧
      fault = .validation condition.field message := by
  have hunmet : ¬ ∀ condition ∈ conditions, condition.met := by
    intro hall
    obtain ⟨a, hok⟩ := hresult.passes hall
    rw [hfault] at hok
    cases hok
  obtain ⟨condition, hfirst⟩ := exists_firstUnmet hunmet
  obtain ⟨message, herror⟩ := hresult.blames condition hfirst
  rw [hfault] at herror
  exact ⟨condition, message, hfirst, Except.error.inj herror⟩

/-- A check of one condition. -/
theorem Decide.single (hpasses : condition.met → ∃ a, result = .ok a)
    (hblames : ¬ condition.met → ∃ message, result = .error (.validation condition.field message)) :
    Decide [condition] result := by
  refine ⟨fun hall => hpasses (hall condition List.mem_cons_self), ?_⟩
  rintro other (hunmet | ⟨-, hrest⟩)
  · exact hblames hunmet
  · nomatch hrest

/-- Of two checks the second is only reached if the first passes, so its conditions come after. -/
theorem Decide.bind (hresult : Decide conditions result)
    (hnext : ∀ a, result = .ok a → Decide more (next a)) :
    Decide (conditions ++ more) (result >>= next) := by
  constructor
  · intro hall
    rw [List.forall_mem_append] at hall
    obtain ⟨a, ha⟩ := hresult.passes hall.1
    obtain ⟨b, hb⟩ := (hnext a ha).passes hall.2
    exact ⟨b, bind_eq_ok_iff.mpr ⟨a, ha, hb⟩⟩
  · intro condition hfirst
    rcases firstUnmet_append_iff.mp hfirst with hfirst | ⟨hall, hfirst⟩
    · obtain ⟨message, herror⟩ := hresult.blames condition hfirst
      exact ⟨message, bind_eq_error_iff.mpr (.inl herror)⟩
    · obtain ⟨a, ha⟩ := hresult.passes hall
      obtain ⟨message, herror⟩ := (hnext a ha).blames condition hfirst
      exact ⟨message, bind_eq_error_iff.mpr (.inr ⟨a, ha, herror⟩)⟩

/-- The check finds its fault if the condition is not met, and it blames the condition's member. -/
def Checks (check : Bool × Fault) (condition : Condition) : Prop :=
  (check.1 = false ↔ condition.met) ∧
    ∃ message, check.2 = .validation condition.field message

/-- Checks one after the other decide the conditions that they look at. -/
theorem Decide.rejectFirst {checks : List (Bool × Fault)}
    (hchecks : List.Forall₂ Checks checks conditions) :
    Decide conditions (Fault.rejectFirst checks) := by
  induction hchecks with
  | nil => exact .ok ()
  | @cons check condition checks conditions hcheck hrest ih =>
    obtain ⟨found, fault⟩ := check
    obtain ⟨hfound, message, rfl⟩ := hcheck
    cases found with
    | true =>
      have hunmet : ¬ condition.met := fun hmet => nomatch hfound.mpr hmet
      refine ⟨fun hall => absurd (hall condition List.mem_cons_self) hunmet, ?_⟩
      rintro other (_ | ⟨hmet, -⟩)
      · exact ⟨message, rfl⟩
      · exact absurd hmet hunmet
    | false =>
      have hmet := hfound.mp rfl
      have hskip : Fault.rejectFirst ((false, .validation condition.field message) :: checks) =
          Fault.rejectFirst checks := rfl
      rw [hskip]
      refine ⟨fun hall => ih.passes fun other hother => hall other (List.mem_cons_of_mem _ hother),
        ?_⟩
      rintro other (hunmet | ⟨-, hrest⟩)
      · exact absurd hmet hunmet
      · exact ih.blames other hrest

end Condition

end CheckHarness
