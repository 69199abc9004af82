import CheckHarness.Text.Replace
import Mathlib.Data.List.Infix

namespace CheckHarness.Text

/-- No occurrence of the pattern begins in the piece, even where the pattern comes after it. -/
def Clear (pattern piece : List Char) : Prop :=
  ¬ pattern <:+: piece ++ pattern.dropLast

instance (pattern piece : List Char) : Decidable (Clear pattern piece) :=
  inferInstanceAs (Decidable (¬ pattern <:+: piece ++ pattern.dropLast))

variable {pattern piece rest : List Char} {c : Char}

theorem Clear.lacks (hclear : Clear pattern piece) : ¬ pattern <:+: piece :=
  fun hinside => hclear (hinside.trans (List.prefix_append _ _).isInfix)

theorem Clear.of_cons (hclear : Clear pattern (c :: piece)) : Clear pattern piece :=
  fun hinside => hclear (List.infix_cons hinside)

/-- The pattern does not occur at the front of a piece, whatever begins with the pattern after it.
-/
theorem Clear.not_begins (hclear : Clear pattern (c :: piece)) (after : List Char) :
    ¬ pattern <+: c :: (piece ++ (pattern ++ after)) := by
  intro hbegins
  have hfront : c :: piece ++ pattern.dropLast <+: c :: (piece ++ (pattern ++ after)) := by
    rw [← List.cons_append, List.prefix_append_right_inj]
    exact (List.dropLast_prefix pattern).trans (List.prefix_append _ _)
  have hlength : pattern.length ≤ (c :: piece ++ pattern.dropLast).length := by
    rw [List.length_append, List.length_cons, List.length_dropLast]
    omega
  exact hclear (List.prefix_of_prefix_length_le hbegins hfront hlength).isInfix

/-- A character at which no occurrence begins is kept. -/
theorem replaceAll_cons_of_not_front (replacement : List Char)
    (hbegins : ¬ pattern <+: c :: rest) :
    replaceAll pattern replacement (c :: rest) = c :: replaceAll pattern replacement rest := by
  rw [replaceAll, replaceFrom, if_neg, replaceAll]
  simp [List.isPrefixOf_iff_prefix, hbegins]

/-- Nothing is replaced in a text without occurrences. -/
theorem replaceAll_of_lacks (replacement : List Char) (hinside : ¬ pattern <:+: piece) :
    replaceAll pattern replacement piece = piece := by
  induction piece with
  | nil => rfl
  | cons c piece ih =>
    rw [List.infix_cons_iff, not_or] at hinside
    rw [replaceAll_cons_of_not_front replacement hinside.1, ih hinside.2]

/-- A clear piece before an occurrence stays as it is. -/
theorem replaceAll_append (hpattern : pattern ≠ []) (replacement after : List Char)
    (hclear : Clear pattern piece) :
    replaceAll pattern replacement (piece ++ (pattern ++ after)) =
      piece ++ (replacement ++ replaceAll pattern replacement after) := by
  induction piece with
  | nil => exact replaceAll_pattern_append replacement after hpattern
  | cons c piece ih =>
    rw [List.cons_append,
      replaceAll_cons_of_not_front replacement (hclear.not_begins after), ih hclear.of_cons,
      List.cons_append]

/-- The replacement takes the place of the pattern between clear pieces. -/
theorem replaceAll_intercalate (hpattern : pattern ≠ []) (replacement : List Char)
    {pieces : List (List Char)} (hclear : ∀ piece ∈ pieces, Clear pattern piece) :
    replaceAll pattern replacement (pattern.intercalate pieces) =
      replacement.intercalate pieces := by
  induction pieces with
  | nil => rfl
  | cons piece pieces ih =>
    rw [List.forall_mem_cons] at hclear
    cases pieces with
    | nil =>
      rw [List.intercalate_singleton, List.intercalate_singleton]
      exact replaceAll_of_lacks replacement hclear.1.lacks
    | cons next pieces =>
      rw [List.intercalate_cons_cons, List.intercalate_cons_cons, List.append_assoc,
        replaceAll_append hpattern replacement _ hclear.1, ih hclear.2, List.append_assoc]

variable {separator : Char}

/-- What has no separator in it cannot occur across one. -/
theorem infix_or_infix_of_notMem (hseparator : separator ∉ pattern) {before after : List Char}
    (hinside : pattern <:+: before ++ separator :: after) :
    pattern <:+: before ∨ pattern <:+: after := by
  have hnil : ∀ {front : List Char}, front <+: separator :: after → separator ∉ front →
      front = [] := by
    intro front hfront habsent
    cases front with
    | nil => rfl
    | cons c front =>
      rw [List.cons_prefix_cons] at hfront
      exact absurd (hfront.1 ▸ List.mem_cons_self) habsent
  rcases List.infix_append_iff.mp hinside with hbefore | hafter | ⟨front, back, rfl, hfront, hback⟩
  · exact .inl hbefore
  · rcases List.infix_cons_iff.mp hafter with hbegins | hlater
    · rw [hnil hbegins hseparator]
      exact .inl (List.nil_infix)
    · exact .inr hlater
  · rw [List.mem_append, not_or] at hseparator
    rw [hnil hback hseparator.2, List.append_nil]
    exact .inl hfront.isInfix

/-- No occurrence begins in an empty piece. -/
theorem clear_nil (hpattern : pattern ≠ []) : Clear pattern [] := by
  intro hinside
  have hlength := hinside.length_le
  have hpositive := List.length_pos_iff.mpr hpattern
  rw [List.nil_append, List.length_dropLast] at hlength
  omega

/-- A text is clear if its lines are. -/
theorem clear_intercalate (hpattern : pattern ≠ []) (hseparator : separator ∉ pattern)
    {lines : List (List Char)} (hlines : ∀ line ∈ lines, Clear pattern line) :
    Clear pattern ([separator].intercalate lines) := by
  induction lines with
  | nil => exact clear_nil hpattern
  | cons line lines ih =>
    rw [List.forall_mem_cons] at hlines
    cases lines with
    | nil =>
      rw [List.intercalate_singleton]
      exact hlines.1
    | cons next lines =>
      intro hinside
      rw [List.intercalate_cons_cons, List.append_assoc, List.append_assoc,
        List.singleton_append] at hinside
      rcases infix_or_infix_of_notMem hseparator hinside with hline | hrest
      · exact hlines.1.lacks hline
      · exact ih hlines.2 hrest

/-- A line with an occurrence is cut before and after it. -/
theorem intercalate_cut (separator : List Char) (lines more : List (List Char))
    (before pattern after : List Char) :
    separator.intercalate (lines ++ (before ++ (pattern ++ after)) :: more) =
      separator.intercalate (lines ++ [before]) ++
        (pattern ++ separator.intercalate (after :: more)) := by
  induction lines with
  | nil =>
    rw [List.nil_append, List.nil_append, List.intercalate_singleton]
    cases more with
    | nil => rw [List.intercalate_singleton, List.intercalate_singleton]
    | cons next more => simp only [List.intercalate_cons_cons, List.append_assoc]
  | cons line lines ih =>
    have hfront : lines ++ [before] ≠ [] := List.append_ne_nil_of_right_ne_nil _ (by simp)
    have hwhole : lines ++ (before ++ (pattern ++ after)) :: more ≠ [] :=
      List.append_ne_nil_of_right_ne_nil _ (by simp)
    rw [List.cons_append, List.cons_append, List.intercalate_cons_of_ne_nil hwhole, ih,
      List.intercalate_cons_of_ne_nil hfront]
    simp only [List.append_assoc]

end CheckHarness.Text
