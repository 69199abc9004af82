import CheckHarness.LineStore.Protocol
import CheckHarness.Proofs.Connection.Stream
import Mathlib.Data.List.DropRight

namespace CheckHarness

theorem occursAt_singleton_iff {byte : UInt8} {text : Bytes} {place : Nat} :
    OccursAt [byte] text place ↔ text[place]? = some byte := by
  rw [OccursAt, ← List.head?_drop]
  cases text.drop place with
  | nil => simp
  | cons other rest => simp [eq_comm]

namespace LineStore

/-- Bytes with one line feed, at their end. -/
def IsLine (line : Bytes) : Prop :=
  ∃ before, line = before ++ [0x0A] ∧ 0x0A ∉ before

/-- The first line feed ends the first line. -/
theorem firstOccursAt_of_not_mem {before rest : Bytes} (hbefore : 0x0A ∉ before) :
    FirstOccursAt [0x0A] (before ++ [0x0A] ++ rest) before.length := by
  constructor
  · rw [occursAt_singleton_iff]
    simp
  · intro earlier hearlier hoccurs
    rw [occursAt_singleton_iff, List.append_assoc, List.getElem?_append_left hearlier] at hoccurs
    exact hbefore (List.mem_of_getElem? hoccurs)

theorem isLine_of_firstOccursAt {line rest : Bytes} {place : Nat}
    (hfirst : FirstOccursAt [0x0A] (line ++ rest) place) (hlength : line.length = place + 1) :
    IsLine line := by
  obtain ⟨hoccurs, hearliest⟩ := hfirst
  rw [occursAt_singleton_iff, List.getElem?_append_left (by omega)] at hoccurs
  refine ⟨line.take place, ?_, ?_⟩
  · have hsplit := List.take_append_drop place line
    have hdrop : line.drop place = [0x0A] := by
      obtain ⟨hplace, hbyte⟩ := List.getElem?_eq_some_iff.mp hoccurs
      rw [List.drop_eq_getElem_cons hplace, hbyte, List.drop_of_length_le (by omega)]
    rw [hdrop] at hsplit
    exact hsplit.symm
  · intro hmem
    obtain ⟨earlier, hearlier, hbyte⟩ := List.mem_iff_getElem.mp hmem
    rw [List.length_take] at hearlier
    apply hearliest earlier (by omega)
    rw [occursAt_singleton_iff, List.getElem?_append_left (by omega)]
    rw [List.getElem_take] at hbyte
    exact List.getElem?_eq_some_iff.mpr ⟨by omega, hbyte⟩

variable {capacity : Nat} {stream : Bytes}

/-- What is received up to a line feed is the first line. -/
theorem fromStream?_line_eq_some_iff {line rest : Bytes} :
    (Receive.until [0x0A]).fromStream? capacity stream = some (line, rest) ↔
      stream = line ++ rest ∧ IsLine line ∧ line.length ≤ capacity := by
  rw [Receive.fromStream?_until_eq_some_iff (by simp)]
  constructor
  · rintro ⟨rfl, hcapacity, place, hfirst, hlength⟩
    exact ⟨rfl, isLine_of_firstOccursAt hfirst hlength, hcapacity⟩
  · rintro ⟨rfl, ⟨before, rfl, hbefore⟩, hcapacity⟩
    exact ⟨rfl, hcapacity, before.length, firstOccursAt_of_not_mem hbefore, by simp⟩

/-- A line feed among the bytes that fit ends a line that fits. -/
theorem exists_line_of_mem (hmem : 0x0A ∈ stream.take capacity) :
    ∃ line rest, stream = line ++ rest ∧ IsLine line ∧ line.length ≤ capacity := by
  obtain ⟨before, after, hsplit, hbefore⟩ := List.eq_append_cons_of_mem hmem
  have hlength := List.length_take_le capacity stream
  rw [hsplit] at hlength
  simp only [List.length_append, List.length_cons] at hlength
  refine ⟨before ++ [0x0A], after ++ stream.drop capacity, ?_, ⟨before, rfl, hbefore⟩, ?_⟩
  · rw [← List.append_assoc, List.append_assoc before, List.singleton_append, ← hsplit,
      List.take_append_drop]
  · rw [List.length_append, List.length_singleton]
    omega

/-- No line is received just if no line feed is among the bytes that fit. -/
theorem fromStream?_line_eq_none_iff :
    (Receive.until [0x0A]).fromStream? capacity stream = none ↔ 0x0A ∉ stream.take capacity := by
  constructor
  · intro hnone hmem
    obtain ⟨line, rest, hline⟩ := exists_line_of_mem hmem
    rw [fromStream?_line_eq_some_iff.mpr hline] at hnone
    cases hnone
  · intro habsent
    cases hreceived : (Receive.until [0x0A]).fromStream? capacity stream with
    | none => rfl
    | some received =>
      obtain ⟨rfl, ⟨before, hline, -⟩, hcapacity⟩ := fromStream?_line_eq_some_iff.mp hreceived
      rw [List.take_append, List.take_of_length_le hcapacity, hline] at habsent
      simp at habsent

/-- Taking the line ends off a text leaves what does not end in one. -/
theorem trimLineEnd_eq_iff {text kept : List Char} :
    trimLineEnd text = kept ↔
      ∃ tail, text = kept ++ tail ∧ (∀ c ∈ tail, c = '\r' ∨ c = '\n') ∧
        ∀ h : kept ≠ [], kept.getLast h ≠ '\r' ∧ kept.getLast h ≠ '\n' := by
  change (text.rdropWhile fun c => c = '\r' || c = '\n') = kept ↔ _
  constructor
  · rintro rfl
    refine ⟨_, List.rdropWhile_append_rtakeWhile.symm, ?_, ?_⟩
    · intro c hc
      simpa using List.mem_rtakeWhile_imp hc
    · intro hne
      simpa using List.rdropWhile_last_not _ _ hne
  · rintro ⟨tail, rfl, htail, hkept⟩
    induction tail using List.reverseRecOn with
    | nil =>
      rw [List.append_nil, List.rdropWhile_eq_self_iff]
      intro hne
      simpa using hkept hne
    | append_singleton tail c ih =>
      have hc : c = '\r' ∨ c = '\n' := htail c (by simp)
      rw [← List.append_assoc, List.rdropWhile_concat_pos _ _ _ (by simpa using hc)]
      exact ih fun other hother => htail other (List.mem_append_left _ hother)

end LineStore

end CheckHarness
