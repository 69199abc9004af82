import Mathlib.Data.List.Basic

namespace CheckHarness

variable {α β : Type} {list : List α} {a b : α} {index : Nat}

/-- What is found in a list with one more element was found before or is the new one. -/
theorem getElem?_concat_eq_some_iff :
    (list ++ [a])[index]? = some b ↔ list[index]? = some b ∨ index = list.length ∧ b = a := by
  rcases Nat.lt_trichotomy index list.length with hlt | rfl | hlt
  · rw [List.getElem?_append_left hlt]
    simp [Nat.ne_of_lt hlt]
  · simp [eq_comm]
  · have hnone : list[index]? = none := List.getElem?_eq_none (Nat.le_of_lt hlt)
    have hlonger : (list ++ [a])[index]? = none := List.getElem?_eq_none (by simp; omega)
    simp [hnone, hlonger, Nat.ne_of_gt hlt]

/-- A change that the map does not see leaves the mapped list as it was. -/
theorem map_set_of_eq {f : α → β} (ha : list[index]? = some a) (hf : f b = f a) :
    (list.set index b).map f = list.map f := by
  refine List.ext_getElem? fun other => ?_
  rw [List.map_set, List.getElem?_set]
  split
  · rename_i heq
    subst heq
    obtain ⟨hlt, rfl⟩ := List.getElem?_eq_some_iff.mp ha
    simp [hlt, hf]
  · rfl

theorem forall_mem_set {P : α → Prop} (hlist : ∀ a ∈ list, P a) (hb : P b) :
    ∀ a ∈ list.set index b, P a := by
  intro a ha
  rcases List.mem_or_eq_of_mem_set ha with ha | rfl
  · exact hlist a ha
  · exact hb

theorem forall_mem_concat {P : α → Prop} (hlist : ∀ a ∈ list, P a) (hb : P b) :
    ∀ a ∈ list ++ [b], P a :=
  List.forall_mem_append.mpr ⟨hlist, List.forall_mem_singleton.mpr hb⟩

/-- All items are mapped if each of them is. -/
theorem mapM_eq_some_map {f : α → Option β} {g : α → β} (items : List α)
    (hitems : ∀ item ∈ items, f item = some (g item)) : items.mapM f = some (items.map g) := by
  induction items with
  | nil => rfl
  | cons item items ih =>
    rw [List.forall_mem_cons] at hitems
    rw [List.mapM_cons, hitems.1, ih hitems.2]
    rfl

/-- If all items are mapped, each of them is. -/
theorem isSome_of_mapM {f : α → Option β} {items : List α} {results : List β}
    (hresults : items.mapM f = some results) : ∀ item ∈ items, (f item).isSome = true := by
  induction items generalizing results with
  | nil => exact List.forall_mem_nil _
  | cons item items ih =>
    simp only [List.mapM_cons, Option.bind_eq_bind, Option.bind_eq_some_iff] at hresults
    obtain ⟨result, hitem, others, hothers, -⟩ := hresults
    exact List.forall_mem_cons.mpr ⟨hitem ▸ rfl, ih hothers⟩

end CheckHarness
