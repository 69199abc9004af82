import CheckHarness.Html.Escape
import CheckHarness.Proofs.Lookup

namespace CheckHarness.Html

/-- The entity of a character, if it has one in the list, or the character itself. -/
def written (entities : List (Char × String)) (c : Char) : List Char :=
  ((entities.lookup c).map String.toList).getD [c]

/-- Each of the entities is written for its character, and every other character stands for itself.
-/
theorem written_entities (c : Char) : written entities c = writtenChar c :=
  rfl

/-- No entity has a character in it that is replaced after it was put in. -/
def Ordered (entities : List (Char × String)) : Prop :=
  entities.Pairwise fun earlier later => later.1 ∉ earlier.2.toList

/-- A text without the characters to be replaced stays as it is. -/
theorem flatMap_written_of_notMem {entities : List (Char × String)} {text : List Char}
    (habsent : ∀ entry ∈ entities, entry.1 ∉ text) : text.flatMap (written entities) = text := by
  have hchar : ∀ c ∈ text, written entities c = [c] := by
    intro c hc
    have hnone : entities.lookup c = none := by
      rw [lookup_eq_none_iff_notMem, List.mem_map]
      rintro ⟨entry, hentry, rfl⟩
      exact habsent entry hentry hc
    rw [written, hnone, Option.map_none, Option.getD_none]
  rw [List.flatMap_congr hchar, List.flatMap_singleton']

/-- Replacements one after the other are one replacement of all characters at once. -/
theorem foldl_replaceChar {entities : List (Char × String)} (hordered : Ordered entities)
    (text : List Char) :
    entities.foldl (fun text entry => replaceChar text entry.1 entry.2.toList) text =
      text.flatMap (written entities) := by
  induction entities generalizing text with
  | nil => exact (flatMap_written_of_notMem (List.forall_mem_nil _)).symm
  | cons entry entities ih =>
    obtain ⟨key, entity⟩ := entry
    obtain ⟨hlater, hrest⟩ := List.pairwise_cons.mp hordered
    rw [List.foldl_cons, ih hrest, replaceChar, List.flatMap_assoc]
    congr 1
    funext c
    by_cases hc : c = key
    · subst hc
      rw [if_pos rfl, flatMap_written_of_notMem hlater, written, List.lookup_cons_self]
      rfl
    · rw [if_neg hc, List.flatMap_singleton, written, written, lookup_cons_of_ne hc]

theorem ordered_entities : Ordered entities := by
  unfold Ordered entities
  decide +kernel

/-- Escaping writes each character in its own form. -/
theorem escapeChars_eq_flatMap (text : List Char) :
    escapeChars text = text.flatMap writtenChar :=
  foldl_replaceChar ordered_entities text

theorem escapeChars_cons (c : Char) (text : List Char) :
    escapeChars (c :: text) = writtenChar c ++ escapeChars text := by
  rw [escapeChars_eq_flatMap, List.flatMap_cons, escapeChars_eq_flatMap]

variable {c : Char} {text after : List Char}

/-- A character has an entity, or it is none of those that have one and stands for itself. -/
theorem writtenChar_cases (c : Char) :
    (∃ entry ∈ entities, entry.1 = c ∧ writtenChar c = entry.2.toList) ∨
      c ∉ entities.map Prod.fst ∧ writtenChar c = [c] := by
  rw [← written_entities, written]
  cases hlookup : entities.lookup c with
  | none => exact .inr ⟨lookup_eq_none_iff_notMem.mp hlookup, rfl⟩
  | some entity => exact .inl ⟨(c, entity), mem_of_lookup hlookup, rfl, rfl⟩

/-- Of the characters with entities only ampersands are left in an escaped text. -/
theorem notMem_escapeChars (hkey : c ∈ entities.map Prod.fst) (hc : c ≠ '&') (text : List Char) :
    c ∉ escapeChars text := by
  rw [escapeChars_eq_flatMap, List.mem_flatMap]
  rintro ⟨other, -, hmem⟩
  rcases writtenChar_cases other with ⟨entry, hentry, -, hwritten⟩ | ⟨hother, hwritten⟩
  · have hentities : ∀ entry ∈ entities, (entry.2.toList.all fun c =>
        c == '&' || !(entities.map Prod.fst).contains c) = true := by
      unfold entities
      decide +kernel
    have hclear := List.all_eq_true.mp (hentities entry hentry) c (hwritten ▸ hmem)
    rw [beq_false_of_ne hc, Bool.false_or, List.contains_iff_mem.mpr hkey] at hclear
    cases hclear
  · rw [hwritten, List.mem_singleton] at hmem
    exact hother (hmem ▸ hkey)

/-- A suffix that begins with a character from elsewhere lies behind the text. -/
theorem suffix_of_notMem (habsent : c ∉ text) {rest : List Char}
    (hsuffix : c :: after <:+ text ++ rest) : c :: after <:+ rest := by
  induction text with
  | nil => exact hsuffix
  | cons other text ih =>
    rw [List.mem_cons, not_or] at habsent
    rcases List.suffix_cons_iff.mp hsuffix with hwhole | hlater
    · exact absurd (List.cons.inj hwhole).1 habsent.1
    · exact ih habsent.2 hlater

/-- Every ampersand of an escaped text is the first character of an entity. -/
theorem exists_entity_of_suffix (hsuffix : '&' :: after <:+ escapeChars text) :
    ∃ entry ∈ entities, entry.2.toList <+: '&' :: after := by
  induction text with
  | nil => cases List.suffix_nil.mp hsuffix
  | cons c text ih =>
    rw [escapeChars_cons] at hsuffix
    rcases writtenChar_cases c with ⟨entry, hentry, -, hwritten⟩ | ⟨hother, hwritten⟩
    · have hentities : ∀ entry ∈ entities, entry.2.toList.head? = some '&' ∧
          '&' ∉ entry.2.toList.tail := by
        unfold entities
        decide +kernel
      obtain ⟨hhead, htail⟩ := hentities entry hentry
      have hentity : entry.2.toList = '&' :: entry.2.toList.tail :=
        List.eq_cons_of_mem_head? hhead
      rw [hwritten, hentity, List.cons_append] at hsuffix
      rcases List.suffix_cons_iff.mp hsuffix with hwhole | hlater
      · refine ⟨entry, hentry, ?_⟩
        rw [hwhole, hentity, ← List.cons_append]
        exact List.prefix_append _ _
      · exact ih (suffix_of_notMem htail hlater)
    · have hc : '&' ∉ [c] := by
        rw [List.mem_singleton]
        rintro rfl
        exact hother (by decide)
      rw [hwritten] at hsuffix
      exact ih (suffix_of_notMem hc hsuffix)

theorem unescapeChars_cons (hc : c ≠ '&') (text : List Char) :
    unescapeChars (c :: text) = c :: unescapeChars text := by
  rw [unescapeChars.eq_def]
  split <;> simp_all

/-- What is written for a character is read back as this character. -/
theorem unescapeChars_written (c : Char) (text : List Char) :
    unescapeChars (writtenChar c ++ text) = c :: unescapeChars text := by
  rcases writtenChar_cases c with ⟨entry, hentry, rfl, hwritten⟩ | ⟨hother, hwritten⟩
  · rw [hwritten]
    simp only [entities, List.mem_cons, List.not_mem_nil, or_false] at hentry
    rcases hentry with rfl | rfl | rfl | rfl <;> rfl
  · rw [hwritten]
    apply unescapeChars_cons
    rintro rfl
    exact hother (by decide)

/-- An escaped text stands for what was escaped. -/
theorem unescapeChars_escapeChars (text : List Char) :
    unescapeChars (escapeChars text) = text := by
  induction text with
  | nil => rfl
  | cons c text ih => rw [escapeChars_cons, unescapeChars_written, ih]

theorem toList_escape (text : String) : (escape text).toList = escapeChars text.toList :=
  String.toList_ofList

/-- Two texts are the same if they are the same when escaped. -/
theorem escape_injective : Function.Injective escape := by
  intro text other hescape
  have hchars := congrArg (unescapeChars ∘ String.toList) hescape
  simp only [Function.comp_apply, toList_escape, unescapeChars_escapeChars] at hchars
  exact String.toList_inj.mp hchars

end CheckHarness.Html
