import CheckHarness.Connection.Scanner

namespace CheckHarness

/-- The delimiter lies in the text from that place on. -/
def OccursAt (delimiter text : Bytes) (place : Nat) : Prop :=
  delimiter <+: text.drop place

theorem OccursAt.end_le {delimiter text : Bytes} {place : Nat} (hdelimiter : delimiter ≠ [])
    (hoccurs : OccursAt delimiter text place) : place + delimiter.length ≤ text.length := by
  have hle := hoccurs.length_le
  have hpos := List.length_pos_iff.mpr hdelimiter
  rw [List.length_drop] at hle
  omega

/-- Whether a delimiter lies within the first part of a text does not depend on what follows. -/
theorem occursAt_append {delimiter text more : Bytes} {place : Nat}
    (hend : place + delimiter.length ≤ text.length) :
    OccursAt delimiter (text ++ more) place ↔ OccursAt delimiter text place := by
  unfold OccursAt
  rw [List.drop_append_of_le_length (by omega)]
  constructor
  · intro hoccurs
    exact List.prefix_of_prefix_length_le hoccurs (List.prefix_append _ _) (by simp; omega)
  · intro hoccurs
    exact hoccurs.trans (List.prefix_append _ _)

/-- The place of the first occurrence, if there is one. -/
def FirstOccursAt (delimiter text : Bytes) (place : Nat) : Prop :=
  OccursAt delimiter text place ∧ ∀ earlier < place, ¬ OccursAt delimiter text earlier

theorem FirstOccursAt.unique {delimiter text : Bytes} {place other : Nat}
    (hplace : FirstOccursAt delimiter text place) (hother : FirstOccursAt delimiter text other) :
    place = other := by
  rcases Nat.lt_trichotomy place other with hlt | heq | hgt
  · exact absurd hplace.1 (hother.2 place hlt)
  · exact heq
  · exact absurd hother.1 (hplace.2 other hgt)

/-- Where the search finds nothing, nothing occurs. -/
theorem endOfFirst?_eq_none {delimiter : Bytes} (hdelimiter : delimiter ≠ []) {text : Bytes}
    {index : Nat} (hfound : endOfFirst? delimiter index text = none) (place : Nat) :
    ¬ OccursAt delimiter text place := by
  induction text generalizing index place with
  | nil => simpa [OccursAt] using hdelimiter
  | cons byte text ih =>
    unfold endOfFirst? at hfound
    split at hfound
    · cases hfound
    · rename_i hhere
      cases place with
      | zero => simpa [OccursAt] using hhere
      | succ place => exact ih hfound place

/-- What the search finds is the first occurrence. -/
theorem endOfFirst?_eq_some {delimiter text : Bytes} {index found : Nat}
    (hfound : endOfFirst? delimiter index text = some found) :
    ∃ place, FirstOccursAt delimiter text place ∧ found = index + place + delimiter.length := by
  induction text generalizing index with
  | nil => cases hfound
  | cons byte text ih =>
    unfold endOfFirst? at hfound
    split at hfound
    · rename_i hhere
      cases hfound
      exact ⟨0, ⟨List.isPrefixOf_iff_prefix.mp hhere, by omega⟩, by omega⟩
    · rename_i hhere
      obtain ⟨place, ⟨hoccurs, hearliest⟩, heq⟩ := ih hfound
      refine ⟨place + 1, ⟨hoccurs, ?_⟩, by omega⟩
      intro earlier hearlier
      cases earlier with
      | zero => simpa [OccursAt] using hhere
      | succ earlier => exact hearliest earlier (by omega)

/-- The search finds the end of the first occurrence. -/
theorem endOfFirst?_eq_some_iff {delimiter : Bytes} (hdelimiter : delimiter ≠ []) {text : Bytes}
    {found : Nat} :
    endOfFirst? delimiter 0 text = some found ↔
      ∃ place, FirstOccursAt delimiter text place ∧ found = place + delimiter.length := by
  constructor
  · intro hfound
    obtain ⟨place, hfirst, heq⟩ := endOfFirst?_eq_some hfound
    exact ⟨place, hfirst, by omega⟩
  · rintro ⟨place, hfirst, rfl⟩
    cases hsearch : endOfFirst? delimiter 0 text with
    | none => exact absurd hfirst.1 (endOfFirst?_eq_none hdelimiter hsearch place)
    | some found =>
      obtain ⟨other, hother, heq⟩ := endOfFirst?_eq_some hsearch
      rw [heq, hfirst.unique hother, Nat.zero_add]

theorem endOfFirst?_le_length {delimiter : Bytes} (hdelimiter : delimiter ≠ []) {text : Bytes}
    {found : Nat} (hfound : endOfFirst? delimiter 0 text = some found) : found ≤ text.length := by
  obtain ⟨place, hfirst, rfl⟩ := (endOfFirst?_eq_some_iff hdelimiter).mp hfound
  exact hfirst.1.end_le hdelimiter

theorem length_le_endOfFirst? {delimiter : Bytes} (hdelimiter : delimiter ≠ []) {text : Bytes}
    {found : Nat} (hfound : endOfFirst? delimiter 0 text = some found) :
    delimiter.length ≤ found := by
  obtain ⟨place, _, rfl⟩ := (endOfFirst?_eq_some_iff hdelimiter).mp hfound
  omega

/-- What is found in the first part of a text is found in all of it, and conversely. -/
theorem endOfFirst?_append_eq_some_iff {delimiter : Bytes} (hdelimiter : delimiter ≠ [])
    {text more : Bytes} {found : Nat} (hfound : found ≤ text.length) :
    endOfFirst? delimiter 0 (text ++ more) = some found ↔
      endOfFirst? delimiter 0 text = some found := by
  rw [endOfFirst?_eq_some_iff hdelimiter, endOfFirst?_eq_some_iff hdelimiter]
  apply exists_congr
  intro place
  apply and_congr_left
  rintro rfl
  unfold FirstOccursAt
  rw [occursAt_append hfound]
  apply and_congr_right
  intro _
  apply forall_congr'
  intro earlier
  apply imp_congr_right
  intro hearlier
  rw [occursAt_append (by omega)]

/-- Places where the delimiter does not lie may be left out of a search. -/
theorem endOfFirst?_drop {delimiter text : Bytes} {start : Nat} (hstart : start ≤ text.length)
    (habsent : ∀ place < start, ¬ OccursAt delimiter text place) (index : Nat) :
    endOfFirst? delimiter (index + start) (text.drop start) = endOfFirst? delimiter index text := by
  induction start generalizing index text with
  | zero => rfl
  | succ start ih =>
    cases text with
    | nil => simp at hstart
    | cons byte text =>
      have hhere : ¬ delimiter.isPrefixOf (byte :: text) = true := by
        intro hprefix
        exact habsent 0 (by omega) (List.isPrefixOf_iff_prefix.mp hprefix)
      have hrest := ih (by simpa using hstart)
        (fun place hplace => habsent (place + 1) (by omega)) (index + 1)
      rw [endOfFirst?, if_neg hhere, ← hrest, List.drop_succ_cons]
      congr 1
      omega

namespace Scanner

/-- Up to where the scanner has searched, the delimiter does not lie in the buffer. -/
structure Missed (scanner : Scanner) (buffer : Bytes) : Prop where
  scanned_le : scanner.scanned ≤ buffer.length
  absent : ∀ place, place + scanner.delimiter.length ≤ scanner.scanned →
    ¬ OccursAt scanner.delimiter buffer place

/-- What was missed is missed in a larger buffer too. -/
theorem Missed.append {scanner : Scanner} {buffer : Bytes} (hmissed : scanner.Missed buffer)
    (more : Bytes) : scanner.Missed (buffer ++ more) where
  scanned_le := by
    have hle := hmissed.scanned_le
    rw [List.length_append]
    omega
  absent := by
    intro place hplace hoccurs
    have hle := hmissed.scanned_le
    exact hmissed.absent place hplace ((occursAt_append (by omega)).mp hoccurs)

/-- A scanner that has not searched yet has missed nothing. -/
theorem missed_of_scanned_eq_zero {scanner : Scanner} (hscanned : scanner.scanned = 0)
    (buffer : Bytes) : scanner.Missed buffer where
  scanned_le := by omega
  absent := by
    intro place hplace
    have hpos := List.length_pos_iff.mpr scanner.delimiter_ne_nil
    omega

/-- The resumed search finds what a search from the start finds. -/
theorem Missed.resume {scanner : Scanner} {buffer : Bytes} (hmissed : scanner.Missed buffer) :
    endOfFirst? scanner.delimiter (scanner.start buffer) (buffer.drop (scanner.start buffer)) =
      endOfFirst? scanner.delimiter 0 buffer := by
  have hpos := List.length_pos_iff.mpr scanner.delimiter_ne_nil
  have habsent : ∀ place < scanner.start buffer, ¬ OccursAt scanner.delimiter buffer place := by
    intro place hplace
    apply hmissed.absent
    unfold start at hplace
    omega
  have hdrop := endOfFirst?_drop (Nat.min_le_right _ _) habsent 0
  rwa [Nat.zero_add] at hdrop

/-- A scanner that has missed nothing finds the first occurrence. -/
theorem Missed.of_scan_some {scanner next : Scanner} {buffer : Bytes} {found : Nat}
    (hmissed : scanner.Missed buffer) (hscan : scanner.scan buffer = (some found, next)) :
    endOfFirst? scanner.delimiter 0 buffer = some found ∧ next = scanner := by
  simp only [scan, hmissed.resume] at hscan
  split at hscan
  · rename_i hfound
    cases hscan
    exact ⟨hfound, rfl⟩
  · cases hscan

/-- After a search in vain the delimiter does not lie in the buffer, and all of it is searched. -/
theorem Missed.of_scan_none {scanner next : Scanner} {buffer : Bytes}
    (hmissed : scanner.Missed buffer) (hscan : scanner.scan buffer = (none, next)) :
    endOfFirst? scanner.delimiter 0 buffer = none ∧ next.delimiter = scanner.delimiter ∧
      next.scanned = buffer.length ∧ next.Missed buffer := by
  simp only [scan, hmissed.resume] at hscan
  split at hscan
  · cases hscan
  · rename_i hfound
    cases hscan
    refine ⟨hfound, rfl, rfl, Nat.le_refl _, ?_⟩
    intro place _
    exact endOfFirst?_eq_none scanner.delimiter_ne_nil hfound place

end Scanner

end CheckHarness
