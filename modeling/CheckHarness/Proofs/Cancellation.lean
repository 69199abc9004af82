import CheckHarness.Cancellation

namespace CheckHarness.CancellationToken

/-- The other token is this one, or lies below it. -/
inductive Reaches (token : CancellationToken) : CancellationToken → Prop where
  | refl : Reaches token token
  | descend {parent : CancellationToken} (hparent : Reaches token parent) (number : Nat) :
    Reaches token (.child parent number)

variable {token other parent : CancellationToken} {number : Nat}

/-- Nothing but its own cancellation reaches a token at the root. -/
theorem reaches_root_iff : token.Reaches (.root number) ↔ token = .root number := by
  constructor
  · rintro ⟨⟩
    rfl
  · rintro rfl
    exact .refl

/-- A token below another one is reached by its own cancellation and by whatever reaches the other
one. -/
theorem reaches_child_iff :
    token.Reaches (.child parent number) ↔ token = .child parent number ∨ token.Reaches parent := by
  constructor
  · intro hreaches
    cases hreaches with
    | refl => exact .inl rfl
    | descend hparent => exact .inr hparent
  · rintro (rfl | hparent)
    · exact .refl
    · exact .descend hparent number

variable {cancelled : List CancellationToken}

/-- A token is cancelled if and only if a cancellation reaches it. -/
theorem isCancelled_iff :
    token.isCancelled cancelled = true ↔ ∃ other ∈ cancelled, other.Reaches token := by
  induction token with
  | root number => simp [isCancelled, reaches_root_iff]
  | child parent number ih =>
    simp only [isCancelled, Bool.or_eq_true, List.contains_iff_mem, ih, reaches_child_iff]
    constructor
    · rintro (hmem | ⟨other, hmem, hreaches⟩)
      · exact ⟨_, hmem, .inl rfl⟩
      · exact ⟨other, hmem, .inr hreaches⟩
    · rintro ⟨other, hmem, rfl | hreaches⟩
      · exact .inl hmem
      · exact .inr ⟨other, hmem, hreaches⟩

/-- One more cancellation reaches the tokens below it, and takes none of the earlier ones back. -/
theorem isCancelled_cons_iff :
    token.isCancelled (other :: cancelled) = true ↔
      other.Reaches token ∨ token.isCancelled cancelled = true := by
  simp [isCancelled_iff]

/-- A token that is made below a cancelled one is cancelled from the beginning. -/
theorem isCancelled_child (hparent : parent.isCancelled cancelled = true) :
    (child parent number).isCancelled cancelled = true := by
  simp [isCancelled, hparent]

end CheckHarness.CancellationToken
