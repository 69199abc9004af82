import CheckHarness.Text.Numeral
import Mathlib.Data.List.Basic
import Mathlib.Data.List.Induction

namespace CheckHarness.Numeral

theorem isDigit_of_mem_digits {n : Nat} {c : Char} (hc : c ∈ digits n) : c.isDigit = true :=
  Nat.isDigit_of_mem_toDigits (by omega) (by omega) hc

theorem toNat_of_isDigit {c : Char} (hc : c.isDigit = true) : 48 ≤ c.toNat ∧ c.toNat ≤ 57 := by
  simp only [Char.isDigit, Bool.and_eq_true, decide_eq_true_eq, ge_iff_le,
    UInt32.le_iff_toNat_le] at hc
  exact hc

theorem digits_ne_nil (n : Nat) : digits n ≠ [] :=
  Nat.toDigits_ne_nil

/-- The first of several digits is not zero. -/
theorem head_digits_ne_zero {n : Nat} (hn : n ≠ 0) : (digits n).head? ≠ some '0' := by
  induction n using Nat.strongRecOn with
  | ind n ih =>
    unfold digits at ih ⊢
    rw [Nat.toDigits_eq_if (by omega)]
    split
    · rename_i hsmall
      intro hhead
      have hzero : ∀ m < 10, m ≠ 0 → m.digitChar ≠ '0' := by decide
      exact hzero n hsmall hn (by simpa using hhead)
    · rename_i hlarge
      have hfront := ih (n / 10) (by omega) (by omega)
      obtain ⟨first, rest, hdigits⟩ := List.exists_cons_of_ne_nil (digits_ne_nil (n / 10))
      unfold digits at hdigits
      rw [hdigits] at hfront ⊢
      exact hfront

/-- More digits do not make a number smaller. -/
theorem le_ofDigitChars (chars : List Char) (value : Nat) :
    value ≤ Nat.ofDigitChars 10 chars value := by
  induction chars generalizing value with
  | nil => exact Nat.le_refl value
  | cons c chars ih =>
    rw [Nat.ofDigitChars_cons]
    have hrest := ih (10 * value + (c.toNat - '0'.toNat))
    omega

/-- Digits are read to the number that they stand for, if it is below the limit: then so are all
numbers on the way. -/
theorem extend_eq_ok_iff {limit value n : Nat} {chars : List Char} (hvalue : value < limit) :
    extend limit value chars = .ok n ↔
      (∀ c ∈ chars, c.isDigit = true) ∧ Nat.ofDigitChars 10 chars value = n ∧ n < limit := by
  induction chars generalizing value with
  | nil =>
    rw [extend, Nat.ofDigitChars_nil, Except.ok.injEq]
    constructor
    · rintro rfl
      exact ⟨List.forall_mem_nil _, rfl, hvalue⟩
    · rintro ⟨-, rfl, -⟩
      rfl
  | cons c chars ih =>
    have hnext : value * 10 + digitValue c = 10 * value + (c.toNat - '0'.toNat) := by
      unfold digitValue
      omega
    rw [extend, Nat.ofDigitChars_cons, List.forall_mem_cons, hnext]
    by_cases hc : c.isDigit = true
    · rw [if_pos hc]
      by_cases hlimit : 10 * value + (c.toNat - '0'.toNat) < limit
      · rw [if_pos hlimit, ih hlimit]
        simp only [hc, true_and]
      -- The digits that are left only make the number larger.
      · have hle := le_ofDigitChars chars (10 * value + (c.toNat - '0'.toNat))
        rw [if_neg hlimit]
        constructor
        · intro hread
          cases hread
        · rintro ⟨-, rfl, hn⟩
          omega
    · rw [if_neg hc]
      constructor
      · intro hread
        cases hread
      · rintro ⟨⟨hdigit, -⟩, -⟩
        exact absurd hdigit hc

/-- The digits of a number stand for it. -/
theorem ofDigitChars_digits (n : Nat) : Nat.ofDigitChars 10 (digits n) 0 = n :=
  Nat.ofDigitChars_toDigits (by omega) (by omega)

/-- The digits of a number below the limit are read as this number. -/
theorem extend_digits {limit n : Nat} (hn : n < limit) : extend limit 0 (digits n) = .ok n :=
  (extend_eq_ok_iff (by omega)).mpr ⟨fun _ => isDigit_of_mem_digits, ofDigitChars_digits n, hn⟩

/-- A row of digits, one at least. -/
structure IsDigits (chars : List Char) : Prop where
  ne_nil : chars ≠ []
  isDigit : ∀ c ∈ chars, c.isDigit = true

instance (chars : List Char) : Decidable (IsDigits chars) :=
  decidable_of_iff (chars ≠ [] ∧ chars.all Char.isDigit = true)
    ⟨fun ⟨hne, hall⟩ => ⟨hne, List.all_eq_true.mp hall⟩,
      fun ⟨hne, hdigit⟩ => ⟨hne, List.all_eq_true.mpr hdigit⟩⟩

/-- The text is a numeral of the number: digits that stand for it, with a sign before them or
without one. -/
inductive Denotes : List Char → Nat → Prop where
  | unsigned {chars} (hchars : IsDigits chars) : Denotes chars (Nat.ofDigitChars 10 chars 0)
  | signed {chars} (hchars : IsDigits chars) : Denotes ('+' :: chars) (Nat.ofDigitChars 10 chars 0)

variable {text chars : List Char} {n : Nat}

theorem isDigits_digits (n : Nat) : IsDigits (digits n) :=
  ⟨digits_ne_nil n, fun _ => isDigit_of_mem_digits⟩

/-- The digits of a number denote it. -/
theorem denotes_digits (n : Nat) : Denotes (digits n) n := by
  have hdenotes := Denotes.unsigned (isDigits_digits n)
  rwa [ofDigitChars_digits] at hdenotes

/-- Nothing but digits occurs in a row of digits. -/
theorem IsDigits.not_mem (hchars : IsDigits chars) {c : Char} (hc : c.isDigit = false) :
    c ∉ chars := by
  intro hmem
  rw [hchars.isDigit c hmem] at hc
  cases hc

/-- A numeral holds nothing but digits and a sign. -/
theorem Denotes.not_mem (hdenotes : Denotes text n) {c : Char} (hdigit : c.isDigit = false)
    (hsign : c ≠ '+') : c ∉ text := by
  cases hdenotes with
  | unsigned hchars => exact hchars.not_mem hdigit
  | signed hchars =>
    rw [List.mem_cons, not_or]
    exact ⟨hsign, hchars.not_mem hdigit⟩

theorem not_isDigits_nil : ¬ IsDigits [] :=
  fun hchars => hchars.ne_nil rfl

theorem not_isDigits_sign_cons : ¬ IsDigits ('+' :: chars) :=
  fun hchars => hchars.not_mem (by decide) List.mem_cons_self

/-- A numeral with a sign denotes what the digits behind the sign stand for. -/
theorem denotes_sign_cons_iff :
    Denotes ('+' :: chars) n ↔ IsDigits chars ∧ Nat.ofDigitChars 10 chars 0 = n := by
  constructor
  · intro hdenotes
    cases hdenotes with
    | unsigned hchars => exact absurd hchars not_isDigits_sign_cons
    | signed hchars => exact ⟨hchars, rfl⟩
  · rintro ⟨hchars, rfl⟩
    exact .signed hchars

/-- A numeral without a sign denotes what its digits stand for. -/
theorem denotes_iff_of_unsigned (hunsigned : ∀ chars, text ≠ '+' :: chars) :
    Denotes text n ↔ IsDigits text ∧ Nat.ofDigitChars 10 text 0 = n := by
  constructor
  · intro hdenotes
    cases hdenotes with
    | unsigned hchars => exact ⟨hchars, rfl⟩
    | signed hchars => exact absurd rfl (hunsigned _)
  · rintro ⟨hchars, rfl⟩
    exact .unsigned hchars

/-- Digits are read as what they stand for, if it is below the limit. -/
theorem extend_zero_eq_ok_iff {limit : Nat} (hlimit : 0 < limit) (hne : chars ≠ []) :
    extend limit 0 chars = .ok n ↔
      (IsDigits chars ∧ Nat.ofDigitChars 10 chars 0 = n) ∧ n < limit := by
  have hdigits : IsDigits chars ↔ ∀ c ∈ chars, c.isDigit = true :=
    ⟨IsDigits.isDigit, fun hchars => ⟨hne, hchars⟩⟩
  rw [extend_eq_ok_iff hlimit, hdigits, and_assoc]

/-- Numerals are read to the numbers that they are numerals of, and nothing else is read. -/
theorem parse_eq_ok_iff {limit : Nat} (hlimit : 0 < limit) :
    parse limit text = .ok n ↔ Denotes text n ∧ n < limit := by
  unfold parse
  split
  · rw [denotes_iff_of_unsigned (by simp)]
    simp [not_isDigits_nil]
  · rw [denotes_sign_cons_iff]
    simp [not_isDigits_nil]
  · rename_i chars hne
    rw [denotes_sign_cons_iff, extend_zero_eq_ok_iff hlimit hne]
  · rename_i hne _ hunsigned
    rw [denotes_iff_of_unsigned hunsigned, extend_zero_eq_ok_iff hlimit hne]

/-- Neither a sign nor a zero before other digits. -/
structure Shortest (text : List Char) : Prop where
  unsigned : text.head? ≠ some '+'
  leading : text.head? = some '0' → text = ['0']

/-- The digits of a number are the shortest way to write it. -/
theorem shortest_digits (n : Nat) : Shortest (digits n) where
  unsigned := by
    intro hhead
    exact (isDigits_digits n).not_mem (by decide) (List.mem_of_mem_head? hhead)
  leading := by
    intro hhead
    by_cases hn : n = 0
    · rw [hn, digits, Nat.toDigits_zero]
    · exact absurd hhead (head_digits_ne_zero hn)

/-- A digit is the one that is written for its value. -/
theorem digitChar_of_isDigit {c : Char} (hc : c.isDigit = true) :
    (c.toNat - '0'.toNat).digitChar = c := by
  have hbounds := toNat_of_isDigit hc
  have hdigit : '0'.toNat = 48 := rfl
  apply Char.toNat_inj.mp
  rw [Nat.toNat_digitChar_of_lt_ten (by omega)]
  omega

/-- More than one digit is only written if the first is not zero. -/
theorem Shortest.of_concat {last : Char} (hshortest : Shortest (chars ++ [last]))
    (hne : chars ≠ []) : Shortest chars ∧ chars.head? ≠ some '0' := by
  have hhead : (chars ++ [last]).head? = chars.head? := List.head?_append_of_ne_nil chars hne
  have hleading : chars.head? ≠ some '0' := by
    intro hzero
    have hlength := congrArg List.length (hshortest.leading (hhead.trans hzero))
    have hpos := List.length_pos_iff.mpr hne
    simp only [List.length_append, List.length_singleton] at hlength
    omega
  exact ⟨⟨hhead ▸ hshortest.unsigned, fun hzero => absurd hzero hleading⟩, hleading⟩

/-- Digits without a superfluous zero are those that are written for their number. -/
theorem IsDigits.digits_ofDigitChars (hchars : IsDigits chars) (hshortest : Shortest chars) :
    digits (Nat.ofDigitChars 10 chars 0) = chars := by
  -- From the right: the last digit is written after those of the quotient, unless this is zero,
  -- and it is not, as no zero stands in front.
  induction chars using List.reverseRecOn with
  | nil => exact absurd hchars not_isDigits_nil
  | append_singleton front last ih =>
    have hlast := hchars.isDigit last (by simp)
    have hbounds := toNat_of_isDigit hlast
    have hdigit : '0'.toNat = 48 := rfl
    have hsmall : last.toNat - '0'.toNat < 10 := by omega
    rw [Nat.ofDigitChars_append, Nat.ofDigitChars_cons, Nat.ofDigitChars_nil]
    by_cases hfront : front = []
    · subst hfront
      rw [Nat.ofDigitChars_nil, Nat.mul_zero, Nat.zero_add, digits, Nat.toDigits_of_lt_base hsmall,
        digitChar_of_isDigit hlast, List.nil_append]
    · obtain ⟨hshorter, hleading⟩ := hshortest.of_concat hfront
      have hdigits :=
        ih ⟨hfront, fun c hc => hchars.isDigit c (List.mem_append_left _ hc)⟩ hshorter
      have hpositive : 0 < Nat.ofDigitChars 10 front 0 := by
        refine Nat.pos_of_ne_zero fun hzero => ?_
        rw [hzero] at hdigits
        exact hleading (hdigits ▸ rfl)
      rw [digits, ← Nat.toDigits_append_toDigits (by omega) hpositive hsmall,
        Nat.toDigits_of_lt_base hsmall, digitChar_of_isDigit hlast]
      exact congrArg (· ++ [last]) hdigits

/-- The one shortest numeral of a number is the one that is written. -/
theorem Denotes.eq_digits_iff (hdenotes : Denotes text n) : text = digits n ↔ Shortest text := by
  constructor
  · rintro rfl
    exact shortest_digits n
  · intro hshortest
    cases hdenotes with
    | unsigned hchars => exact (hchars.digits_ofDigitChars hshortest).symm
    | signed => exact absurd rfl hshortest.unsigned

end CheckHarness.Numeral
