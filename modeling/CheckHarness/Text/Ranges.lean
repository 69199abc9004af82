namespace CheckHarness.Text

/-- Whether a character is in a class that is given by closed ranges of code points. -/
def inRanges (ranges : List (Nat × Nat)) (c : Char) : Bool :=
  ranges.any fun range => range.1 ≤ c.toNat && c.toNat ≤ range.2

theorem inRanges_eq_true_iff {ranges : List (Nat × Nat)} {c : Char} :
    inRanges ranges c = true ↔ ∃ range ∈ ranges, range.1 ≤ c.toNat ∧ c.toNat ≤ range.2 := by
  simp [inRanges]

theorem inRanges_eq_false_iff {ranges : List (Nat × Nat)} {c : Char} :
    inRanges ranges c = false ↔ ∀ range ∈ ranges, range.1 ≤ c.toNat → range.2 < c.toNat := by
  rw [Bool.eq_false_iff, Ne, inRanges_eq_true_iff]
  simp only [not_exists, not_and, Nat.not_le]

end CheckHarness.Text
