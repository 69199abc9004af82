import CheckHarness.Proofs.Task.ChainId
import CheckHarness.Proofs.Task.Noise
import CheckHarness.Text.Blank
import Mathlib.Algebra.Group.Nat.Defs

namespace CheckHarness

namespace Hex

/-- Whether the character is a digit as it is written. -/
def isLower (c : Char) : Bool :=
  c.isDigit || ('a' ≤ c && c ≤ 'f')

theorem isLower_digit {value : Nat} (hvalue : value < 16) : isLower (digit value) = true := by
  decide +revert

theorem digit_injective {value other : Nat} (hvalue : value < 16) (hother : other < 16)
    (h : digit value = digit other) : value = other := by
  have hread := congrArg value? h
  simpa only [value?_digit hvalue, value?_digit hother, Option.some.injEq] using hread

end Hex

namespace Noise

/-- What undoes the factor of a step. -/
def primeInverse : UInt64 :=
  0xce965057aff6957b

/-- The prime has an inverse among the words of sixty-four bits. -/
theorem prime_mul_primeInverse : prime * primeInverse = 1 := by
  decide

/-- A multiplication by the prime can be undone. -/
theorem mul_prime_injective {word other : UInt64} (h : word * prime = other * prime) :
    word = other := by
  have hundone := congrArg (· * primeInverse) h
  simpa only [UInt64.mul_assoc, prime_mul_primeInverse, UInt64.mul_one] using hundone

/-- A step of the hash can be undone when its byte is known. -/
theorem hash_eq_of_mix_eq {hash other : UInt64} {byte : UInt8}
    (h : mix hash byte = mix other byte) : hash = other :=
  (UInt64.xor_left_inj _).mp (mul_prime_injective h)

/-- Different bytes lead one hash to different ones. -/
theorem byte_eq_of_mix_eq {hash : UInt64} {byte other : UInt8}
    (h : mix hash byte = mix hash other) : byte = other :=
  UInt8.toUInt64_inj.mp ((UInt64.xor_right_inj _).mp (mul_prime_injective h))

/-- Different hashes stay different, whatever bytes follow. -/
theorem eq_of_foldl_mix_eq {bytes : Bytes} {hash other : UInt64}
    (h : bytes.foldl mix hash = bytes.foldl mix other) : hash = other := by
  induction bytes generalizing hash other with
  | nil => exact h
  | cons byte bytes ih => exact hash_eq_of_mix_eq (ih h)

/-- Texts that differ in one byte have different hashes, whatever stands before and after it. -/
theorem byte_eq_of_hash_eq {before after : Bytes} {a b : UInt8}
    (h : hash (before ++ a :: after) = hash (before ++ b :: after)) : a = b := by
  simp only [hash, List.foldl_append, List.foldl_cons] at h
  exact byte_eq_of_mix_eq (eq_of_foldl_mix_eq h)

/-- What lies below a place is determined by the digits at the lower places. -/
theorem mod_eq_of_digits_eq {m n count : Nat}
    (h : ∀ place < count, m / 16 ^ place % 16 = n / 16 ^ place % 16) :
    m % 16 ^ count = n % 16 ^ count := by
  induction count with
  | zero => rw [Nat.pow_zero, Nat.mod_one, Nat.mod_one]
  | succ count ih =>
    have hlower := ih fun place hplace => h place (Nat.lt_succ_of_lt hplace)
    rw [Nat.mod_pow_succ, Nat.mod_pow_succ, hlower, h count (Nat.lt_succ_self count)]

/-- A word can be read back from its sixteen digits. -/
theorem hexWord_injective {word other : UInt64} (h : hexWord word = hexWord other) :
    word = other := by
  have hdigits : ∀ place < 16,
      word.toNat / 16 ^ place % 16 = other.toNat / 16 ^ place % 16 := by
    intro place hplace
    have hdigit := List.map_inj_left.mp h (15 - place) (List.mem_range.mpr (by omega))
    have hvalue := Hex.digit_injective (Nat.mod_lt _ (by decide)) (Nat.mod_lt _ (by decide)) hdigit
    have hposition : 15 - (15 - place) = place := by omega
    rwa [hposition, Nat.shiftRight_eq_div_pow, Nat.shiftRight_eq_div_pow, Nat.pow_mul] at hvalue
  have hmod := mod_eq_of_digits_eq hdigits
  have hsize : 16 ^ 16 = UInt64.size := by decide
  rw [hsize, Nat.mod_eq_of_lt word.toNat_lt_size, Nat.mod_eq_of_lt other.toNat_lt_size] at hmod
  exact UInt64.toNat_inj.mp hmod

theorem isLower_of_mem_hexWord {word : UInt64} {c : Char} (hc : c ∈ hexWord word) :
    Hex.isLower c = true := by
  obtain ⟨i, -, rfl⟩ := List.mem_map.mp hc
  exact Hex.isLower_digit (Nat.mod_lt _ (by decide))

variable {chain other : String}

/-- Noise gives away the hash of its chain. -/
theorem hash_eq_of_ofChain_eq (h : ofChain chain = ofChain other) :
    hash (Bytes.ofText chain) = hash (Bytes.ofText other) := by
  have hchars := congrArg String.toList h
  rw [toList_ofChain, toList_ofChain] at hchars
  exact hexWord_injective (List.append_cancel_left hchars)

/-- Chains whose texts differ in one byte never share their noise. -/
theorem ofChain_ne_of_byte_ne {before after : Bytes} {a b : UInt8} (hne : a ≠ b)
    (hchain : Bytes.ofText chain = before ++ a :: after)
    (hother : Bytes.ofText other = before ++ b :: after) : ofChain chain ≠ ofChain other := by
  intro hnoise
  have hhash := hash_eq_of_ofChain_eq hnoise
  rw [hchain, hother] at hhash
  exact hne (byte_eq_of_hash_eq hhash)

theorem isBlank_eq_false_of_mem_ofChain {c : Char} (hc : c ∈ (ofChain chain).toList) :
    Text.isBlank c = false := by
  obtain ⟨hlow, hhigh⟩ := toNat_of_mem_ofChain hc
  have houtside : ∀ range ∈ Text.blankRanges, range.2 < 45 ∨ 128 ≤ range.1 := by decide
  rw [Text.isBlank, Text.inRanges_eq_false_iff]
  intro range hrange hfrom
  have := houtside range hrange
  omega

end Noise

/-- The texts are alike apart from one digit, which may stand anywhere. -/
def OneDigitApart (text other : List Char) : Prop :=
  ∃ before c d after, c.isDigit = true ∧ d.isDigit = true ∧ c ≠ d ∧
    text = before ++ c :: after ∧ other = before ++ d :: after

theorem OneDigitApart.within {text other : List Char} (h : OneDigitApart text other)
    (front back : List Char) : OneDigitApart (front ++ text ++ back) (front ++ other ++ back) := by
  obtain ⟨before, c, d, after, hc, hd, hne, rfl, rfl⟩ := h
  exact ⟨front ++ before, c, d, after ++ back, hc, hd, hne, by simp, by simp⟩

/-- Chains whose texts are one digit apart never share their noise. -/
theorem OneDigitApart.ofChain_ne {chain other : String}
    (h : OneDigitApart chain.toList other.toList) : Noise.ofChain chain ≠ Noise.ofChain other := by
  obtain ⟨before, c, d, after, hc, hd, hne, hchain, hother⟩ := h
  have hascii : ∀ {digit : Char}, digit.isDigit = true → digit.toNat < 128 := by
    intro digit hdigit
    have := Numeral.toNat_of_isDigit hdigit
    omega
  -- A digit is one byte, so the encodings differ in one byte as well.
  have hchain := Bytes.ofText_of_ascii (hascii hc) hchain
  have hother := Bytes.ofText_of_ascii (hascii hd) hother
  refine Noise.ofChain_ne_of_byte_ne ?_ hchain hother
  exact fun hbyte => hne (Bytes.eq_of_ascii_byte (hascii hc) (hascii hd) hbyte)

/-- The numbers have decimals that differ in one digit. -/
def NearNumbers (n m : UInt64) : Prop :=
  OneDigitApart (Numeral.digits n.toNat) (Numeral.digits m.toNat)

namespace ChainId

/-- The chains are alike apart from one number, of which one digit differs. -/
inductive Neighbours (chain : ChainId) : ChainId → Prop where
  | service {n} (hnear : NearNumbers chain.service n) : Neighbours chain { chain with service := n }
  | round {n} (hnear : NearNumbers chain.round n) : Neighbours chain { chain with round := n }
  | team {n} (hnear : NearNumbers chain.team n) : Neighbours chain { chain with team := n }
  | variant {n} (hnear : NearNumbers chain.variant n) : Neighbours chain { chain with variant := n }

/-- Numbers that are one digit apart make parts that are. -/
theorem oneDigitApart_part {n m : UInt64} (hnear : NearNumbers n m) (letter : Char)
    (front back : List Char) :
    OneDigitApart (front ++ (part letter n ++ back)) (front ++ (part letter m ++ back)) := by
  have hwithin := hnear.within (front ++ ['_', letter]) back
  simpa only [part, List.append_assoc, List.cons_append, List.nil_append] using hwithin

/-- What is written for neighbours differs in one digit. -/
theorem Neighbours.render {chain other : ChainId} (h : chain.Neighbours other) :
    OneDigitApart chain.render.toList other.render.toList := by
  simp only [ChainId.render, String.toList_ofList, List.append_assoc]
  let kind := chain.kind.name.toList
  let service := part 's' chain.service
  let round := part 'r' chain.round
  let team := part 't' chain.team
  let variant := part 'i' chain.variant
  cases h with
  | service hnear => exact oneDigitApart_part hnear 's' kind (round ++ (team ++ variant))
  | round hnear =>
    have hround := oneDigitApart_part hnear 'r' (kind ++ service) (team ++ variant)
    rwa [List.append_assoc, List.append_assoc] at hround
  | team hnear =>
    have hteam := oneDigitApart_part hnear 't' (kind ++ (service ++ round)) variant
    simpa only [List.append_assoc] using hteam
  | variant hnear =>
    have hvariant := oneDigitApart_part hnear 'i' (kind ++ (service ++ (round ++ team))) []
    simpa only [List.append_assoc, List.append_nil] using hvariant

end ChainId

namespace Noise

/-- Two texts that differ in one byte have different noise, and so have two chain ids that differ in
one digit, in their texts or in one of their numbers. The noise of a text is always written in
sixteen hexadecimal digits, among which there is no blank and no line end. -/
theorem neighbours_apart :
    (∀ (before after : Bytes) (a b : UInt8) (chain other : String), a ≠ b →
      Bytes.text? (before ++ [a] ++ after) = some chain →
      Bytes.text? (before ++ [b] ++ after) = some other → ofChain chain ≠ ofChain other) ∧
    (∀ chain other : String, OneDigitApart chain.toList other.toList →
      ofChain chain ≠ ofChain other) ∧
    (∀ chain other : ChainId, chain.Neighbours other →
      ofChain chain.render ≠ ofChain other.render) ∧
    ∀ chain : String,
      (∃ digits : List Char, ofChain chain = "noise-" ++ String.ofList digits ∧
        digits.length = 16 ∧ ∀ c ∈ digits, Hex.isLower c = true) ∧
      ∀ c ∈ (ofChain chain).toList, Text.isBlank c = false ∧ c ≠ '\r' ∧ c ≠ '\n' := by
  refine ⟨?_, fun _ _ => OneDigitApart.ofChain_ne, fun _ _ hnear => hnear.render.ofChain_ne, ?_⟩
  · intro before after a b chain other hne hchain hother
    rw [List.append_assoc, List.singleton_append, Bytes.text?_eq_some_iff] at hchain hother
    exact ofChain_ne_of_byte_ne hne hchain.symm hother.symm
  · intro chain
    refine ⟨⟨_, rfl, length_hexWord _, fun _ => isLower_of_mem_hexWord⟩, fun c hc => ?_⟩
    have hblank := isBlank_eq_false_of_mem_ofChain hc
    refine ⟨hblank, ?_, ?_⟩
    · rintro rfl
      cases hblank
    · rintro rfl
      cases hblank

/-- Two letters that differ in the second of their two bytes, the texts of two chain ids with the
same numerals but one, and two chain ids of neighbouring teams. -/
theorem neighbours_apart_teams :
    ofChain "é" ≠ ofChain "è" ∧
    ofChain "noise_s+1_r02_t3_i0" ≠ ofChain "noise_s+1_r03_t3_i0" ∧
    ofChain (ChainId.render ⟨.noise, 1, 2, 18, 0⟩) ≠
      ofChain (ChainId.render ⟨.noise, 1, 2, 19, 0⟩) := by
  obtain ⟨hbyte, hdigit, hnumber, -⟩ := neighbours_apart
  refine ⟨?_, ?_, ?_⟩
  · exact hbyte [0xC3] [] 0xA9 0xA8 "é" "è" (by decide) (Bytes.text?_eq_some_iff.mpr rfl)
      (Bytes.text?_eq_some_iff.mpr rfl)
  · exact hdigit _ _ ⟨"noise_s+1_r0".toList, '2', '3', "_t3_i0".toList, rfl, rfl, by decide, rfl, rfl⟩
  · exact hnumber _ _ (.team ⟨['1'], '8', '9', [], rfl, rfl, by decide, by decide, by decide⟩)

end Noise

end CheckHarness
