import CheckHarness.Task.Noise
import CheckHarness.Proofs.Text.Encoding

namespace CheckHarness

theorem Hex.toNat_digit {value : Nat} (hvalue : value < 16) :
    48 ≤ (digit value).toNat ∧ (digit value).toNat < 128 := by
  decide +revert

namespace Noise

variable {chain : String}

theorem length_hexWord (word : UInt64) : (hexWord word).length = 16 := by
  rw [hexWord, List.length_map, List.length_range]

/-- The noise is a fixed beginning and the digits of the hash. -/
theorem toList_ofChain :
    (ofChain chain).toList = "noise-".toList ++ hexWord (hash (Bytes.ofText chain)) := by
  simp only [ofChain, String.toList_append, String.toList_ofList]

/-- The noise is written in ASCII characters, none of which is a blank or ends a line. -/
theorem toNat_of_mem_ofChain {c : Char} (hc : c ∈ (ofChain chain).toList) :
    45 ≤ c.toNat ∧ c.toNat < 128 := by
  rw [toList_ofChain, List.mem_append] at hc
  rcases hc with hc | hc
  · have hprefix : ∀ other ∈ "noise-".toList, 45 ≤ other.toNat ∧ other.toNat < 128 := by simp
    exact hprefix c hc
  · obtain ⟨i, -, rfl⟩ := List.mem_map.mp hc
    obtain ⟨hlow, hhigh⟩ := Hex.toNat_digit (Nat.mod_lt _ (by omega))
    exact ⟨Nat.le_trans (by omega) hlow, hhigh⟩

/-- The noise takes twenty-two bytes. -/
theorem length_ofText_ofChain : (Bytes.ofText (ofChain chain)).length = 22 := by
  have hascii : ∀ c ∈ (ofChain chain).toList, c.toNat < 128 := fun c hc =>
    (toNat_of_mem_ofChain hc).2
  rw [Bytes.ofText_eq_ofChars, Bytes.length_ofChars_of_ascii hascii, toList_ofChain,
    List.length_append, length_hexWord]
  rfl

/-- Noise is never empty. -/
theorem ofChain_ne_empty : ofChain chain ≠ "" := by
  intro hempty
  have hlength := @length_ofText_ofChain chain
  rw [hempty] at hlength
  cases hlength

end Noise

end CheckHarness
