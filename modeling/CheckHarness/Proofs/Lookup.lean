import Mathlib.Data.List.Basic

namespace CheckHarness

/-- Names that are paired with values keep their order, and none is added. -/
theorem map_fst_zip_sublist {α β : Type} (keys : List α) (values : List β) :
    ((keys.zip values).map Prod.fst).Sublist keys := by
  induction keys generalizing values with
  | nil => exact .slnil
  | cons key keys ih =>
    cases values with
    | nil => exact List.nil_sublist _
    | cons value values => exact (ih values).cons_cons key

/-- If no key has more than one value, no name occurs twice. -/
theorem map_fst_flatMap_sublist {κ α β : Type} {keys : List κ} {name : κ → α} {values : κ → List β}
    (hvalues : ∀ key, (values key).length ≤ 1) :
    ((keys.flatMap fun key => (values key).map fun value => (name key, value)).map
      Prod.fst).Sublist (keys.map name) := by
  induction keys with
  | nil => exact .slnil
  | cons key keys ih =>
    rw [List.flatMap_cons, List.map_append, List.map_cons, ← List.singleton_append]
    refine List.Sublist.append ?_ ih
    have hkey := hvalues key
    rcases hvalue : values key with _ | ⟨value, _ | ⟨_, _⟩⟩
    · exact List.nil_sublist _
    · exact List.Sublist.refl _
    · rw [hvalue] at hkey
      simp at hkey

variable {α β : Type} [BEq α] [LawfulBEq α] {entries : List (α × β)} {key : α} {value : β}

theorem mem_of_lookup (hlookup : entries.lookup key = some value) : (key, value) ∈ entries := by
  obtain ⟨before, after, rfl, _⟩ := List.lookup_eq_some_iff.mp hlookup
  simp

/-- Nothing is found under a name just if no entry has it. -/
theorem lookup_eq_none_iff_notMem : entries.lookup key = none ↔ key ∉ entries.map Prod.fst := by
  rw [List.lookup_eq_none_iff, List.mem_map]
  constructor
  · rintro hnone ⟨entry, hentry, rfl⟩
    simpa using hnone entry hentry
  · intro habsent entry hentry
    exact bne_iff_ne.mpr fun hkey => habsent ⟨entry, hentry, hkey.symm⟩

theorem lookup_cons_of_ne {other : α} (hne : key ≠ other) :
    List.lookup key ((other, value) :: entries) = entries.lookup key := by
  rw [List.lookup_cons, beq_false_of_ne hne]

variable {κ : Type} {keys : List κ} {name : κ → α}

/-- A key is found under its name. -/
theorem find?_name_eq_some {key : κ}
    (hname : ∀ key ∈ keys, ∀ other ∈ keys, name key = name other → key = other)
    (hkey : key ∈ keys) : (keys.find? fun other => name other == name key) = some key := by
  cases hfind : keys.find? fun other => name other == name key with
  | none => simpa using List.find?_eq_none.mp hfind key hkey
  | some other =>
    have hother : name other = name key := by simpa using List.find?_some hfind
    rw [hname other (List.mem_of_find?_eq_some hfind) key hkey hother]

/-- Under a name that no key has, no key is found. -/
theorem find?_name_eq_none {key : α} (hunknown : ∀ other ∈ keys, name other ≠ key) :
    (keys.find? fun other => name other == key) = none := by
  rw [List.find?_eq_none]
  intro other hother
  rw [beq_iff_eq]
  exact hunknown other hother

/-- What is found under the name of a key is the first of the values of the key. -/
theorem lookup_flatMap {key : κ} (values : κ → List β)
    (hname : ∀ key ∈ keys, ∀ other ∈ keys, name key = name other → key = other)
    (hkey : key ∈ keys) :
    (keys.flatMap fun other => (values other).map fun value => (name other, value)).lookup
      (name key) = (values key).head? := by
  cases hvalues : values key with
  | nil =>
    -- No other key has the name, so nothing stands under it.
    rw [List.head?_nil, lookup_eq_none_iff_notMem]
    intro hmem
    simp only [List.map_flatMap, List.map_map, List.mem_flatMap, List.mem_map,
      Function.comp_apply] at hmem
    obtain ⟨other, hother, value, hvalue, hsame⟩ := hmem
    rw [hname other hother key hkey hsame, hvalues] at hvalue
    cases hvalue
  | cons value more =>
    induction keys with
    | nil => cases hkey
    | cons other keys ih =>
      rw [List.flatMap_cons, List.lookup_append]
      by_cases hother : name other = name key
      · obtain rfl := hname other List.mem_cons_self key hkey hother
        rw [hvalues, List.map_cons, List.lookup_cons_self, Option.some_or, List.head?_cons]
      · have hrest : key ∈ keys := by
          rcases List.mem_cons.mp hkey with rfl | hrest
          · exact absurd rfl hother
          · exact hrest
        have hskip : ((values other).map fun value => (name other, value)).lookup (name key) = none := by
          rw [lookup_eq_none_iff_notMem, List.map_map]
          intro hmem
          obtain ⟨_, _, hsame⟩ := List.mem_map.mp hmem
          exact hother hsame
        rw [hskip, Option.none_or]
        exact ih (fun first hfirst second hsecond => hname first (List.mem_cons_of_mem _ hfirst) second
          (List.mem_cons_of_mem _ hsecond)) hrest

/-- Under the name of a key its value is found, if no two keys share a name. -/
theorem lookup_map {key : κ} (value : κ → β)
    (hname : ∀ key ∈ keys, ∀ other ∈ keys, name key = name other → key = other)
    (hkey : key ∈ keys) :
    (keys.map fun other => (name other, value other)).lookup (name key) = some (value key) := by
  rw [List.map_eq_flatMap]
  exact lookup_flatMap (fun key => [value key]) hname hkey

end CheckHarness
