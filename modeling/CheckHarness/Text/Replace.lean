namespace CheckHarness.Text

/-- Replaces the occurrences in a text whose first `skip` characters belong to an occurrence that
was replaced already. The empty pattern occurs nowhere. -/
def replaceFrom (pattern replacement : List Char) : Nat → List Char → List Char
  | _, [] => []
  | skip + 1, _ :: text => replaceFrom pattern replacement skip text
  | 0, c :: text =>
    if !pattern.isEmpty && pattern.isPrefixOf (c :: text) then
      replacement ++ replaceFrom pattern replacement (pattern.length - 1) text
    else c :: replaceFrom pattern replacement 0 text

/-- Replaces a pattern in a text. Occurrences are looked for from left to right and do not overlap;
what was put in for one is not searched again. -/
def replaceAll (pattern replacement text : List Char) : List Char :=
  replaceFrom pattern replacement 0 text

theorem replaceFrom_length_append (pattern replacement skipped text : List Char) :
    replaceFrom pattern replacement skipped.length (skipped ++ text) =
      replaceAll pattern replacement text := by
  induction skipped with
  | nil => rfl
  | cons c skipped ih => exact ih

/-- An occurrence at the front is replaced as a whole. -/
theorem replaceAll_pattern_append {pattern : List Char} (replacement text : List Char)
    (h : pattern ≠ []) :
    replaceAll pattern replacement (pattern ++ text) =
      replacement ++ replaceAll pattern replacement text := by
  cases pattern with
  | nil => exact absurd rfl h
  | cons c rest =>
    simp only [replaceAll, List.cons_append, replaceFrom]
    rw [if_pos (by simp)]
    exact congrArg _ (replaceFrom_length_append (c :: rest) replacement rest text)

end CheckHarness.Text
