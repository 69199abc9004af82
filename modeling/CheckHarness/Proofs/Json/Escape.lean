import CheckHarness.Json.Escape
import CheckHarness.Json.Printer
import CheckHarness.Proofs.Json.Grammar
import CheckHarness.Proofs.Text.Encoding
import Mathlib.Tactic.SplitIfs

namespace CheckHarness.Json

/-- Four hexadecimal digits with their value. -/
structure SpellsUnit (unit : Nat) (digits : Bytes) : Prop where
  hex : ∃ a b c d, digits = [a, b, c, d] ∧ hexUnit a b c d = unit
  digit : ∀ byte ∈ digits, Lexer.isHexDigit byte = true

/-- The ways to write a character. -/
inductive SpellsChar (c : Char) : Bytes → Prop where
  | plain (hplain : ∀ byte ∈ String.utf8EncodeChar c, isPlain byte = true) :
    SpellsChar c (String.utf8EncodeChar c)
  | short {letter byte} (hletter : shortEscape? letter = some byte)
    (hbyte : String.utf8EncodeChar c = [byte]) : SpellsChar c [0x5C, letter]
  | unit {digits} (hdigits : SpellsUnit c.toNat digits) : SpellsChar c (0x5C :: 0x75 :: digits)
  | pair {high low first second} (hfirst : SpellsUnit high first) (hsecond : SpellsUnit low second)
    (hhigh : isHighSurrogate high = true) (hlow : isLowSurrogate low = true)
    (hpair : surrogatePair high low = c.toNat) :
    SpellsChar c (0x5C :: 0x75 :: (first ++ 0x5C :: 0x75 :: second))

/-- The bytes between quotes are a way to write the characters. Each stands for itself unless it is
a quote, a backslash or a control character, and may be escaped by a letter of its own, by its
UTF-16 unit or by its two surrogates. -/
inductive SpellsChars : List Char → Bytes → Prop where
  | nil : SpellsChars [] []
  | cons {c chars body more} (hchar : SpellsChar c body) (hchars : SpellsChars chars more) :
    SpellsChars (c :: chars) (body ++ more)

namespace SpellsChar

variable {c : Char} {body : Bytes}

/-- No character is a surrogate. -/
theorem not_surrogate (c : Char) :
    isHighSurrogate c.toNat = false ∧ isLowSurrogate c.toNat = false := by
  have hvalid := c.valid
  simp only [isHighSurrogate, isLowSurrogate, Bool.and_eq_false_iff, decide_eq_false_iff_not]
  have hscalar : c.toNat < 0xD800 ∨ 0xDFFF < c.toNat ∧ c.toNat < 0x110000 := hvalid
  omega

theorem utf8_toNat (c : Char) : utf8 c.toNat = String.utf8EncodeChar c := by
  rw [utf8, Char.ofNat_toNat, String.singleton_eq_ofList, Bytes.ofText_ofList]
  exact List.append_nil _

/-- Plain bytes are read as they stand. -/
theorem unescapeOnto_plain {bytes : Bytes} (hplain : ∀ byte ∈ bytes, isPlain byte = true)
    (read rest : Bytes) : unescapeOnto read (bytes ++ rest) = unescapeOnto (bytes.reverse ++ read) rest := by
  induction bytes generalizing read with
  | nil => rfl
  | cons byte bytes ih =>
    have hbyte : byte ≠ 0x5C := by
      rintro rfl
      simpa [isPlain] using hplain 0x5C List.mem_cons_self
    rw [List.cons_append, unescapeOnto, ih (fun other hother => hplain other (List.mem_cons_of_mem byte hother)),
      List.reverse_cons, List.append_assoc, List.singleton_append]
    · intro _ _ _ _ _ hescape
      exact absurd hescape hbyte
    · intro _ _ hescape
      exact absurd hescape hbyte

/-- A character is read in whichever way it was written. -/
theorem unescapeOnto_append (hchar : SpellsChar c body) (read rest : Bytes) :
    unescapeOnto read (body ++ rest) =
      unescapeOnto ((String.utf8EncodeChar c).reverse ++ read) rest := by
  cases hchar with
  | plain hplain => exact unescapeOnto_plain hplain read rest
  | @short letter byte hletter hbyte =>
    rw [hbyte]
    change unescapeOnto read (0x5C :: letter :: rest) = _
    rw [unescapeOnto]
    · rw [hletter]
      rfl
    · rintro _ _ _ _ _ rfl
      simp [shortEscape?] at hletter
  | unit hdigits =>
    obtain ⟨⟨a, b, d, e, rfl, hunit⟩, _⟩ := hdigits
    obtain ⟨hhigh, hlow⟩ := not_surrogate c
    rw [← utf8_toNat]
    change unescapeOnto read (0x5C :: 0x75 :: a :: b :: d :: e :: rest) = _
    rw [unescapeOnto.eq_def]
    simp only [hunit, hhigh, hlow, Bool.false_eq_true, if_false]
  | pair hfirst hsecond hhigh hlow hpair =>
    obtain ⟨⟨a, b, d, e, rfl, rfl⟩, _⟩ := hfirst
    obtain ⟨⟨f, g, h, i, rfl, rfl⟩, _⟩ := hsecond
    rw [← utf8_toNat, ← hpair]
    change unescapeOnto read
      (0x5C :: 0x75 :: a :: b :: d :: e :: 0x5C :: 0x75 :: f :: g :: h :: i :: rest) = _
    rw [unescapeOnto]
    simp only [hhigh, hlow, if_true]

/-- An escaped unit may stand in a string. -/
theorem isBody_unit {unit : Nat} {digits rest : Bytes} (hdigits : SpellsUnit unit digits)
    (hrest : IsBody rest) : IsBody (0x5C :: 0x75 :: (digits ++ rest)) := by
  obtain ⟨⟨a, b, c, d, rfl, _⟩, hhex⟩ := hdigits
  exact .unit hhex hrest

/-- Whichever way a character is written, it may stand between quotes. -/
theorem isBody (hchar : SpellsChar c body) : IsBody body := by
  cases hchar with
  | plain hplain => exact isBody_of_plain hplain
  | @short letter byte hletter hbyte =>
    have hshort : Lexer.isShortEscape letter = true := by
      unfold shortEscape? at hletter
      split at hletter
      · decide
      all_goals first | decide | cases hletter
    exact .short hshort .nil
  | unit hdigits => simpa using isBody_unit hdigits .nil
  | pair hfirst hsecond _ _ _ =>
    exact isBody_unit hfirst (by simpa using isBody_unit hsecond .nil)

end SpellsChar

namespace SpellsChars

variable {chars : List Char} {body : Bytes}

/-- The characters are read in whichever way they were written. -/
theorem unescapeOnto_eq (hchars : SpellsChars chars body) (read : Bytes) :
    unescapeOnto read body = some (read.reverse ++ Bytes.ofChars chars) := by
  induction hchars generalizing read with
  | nil => simp [unescapeOnto]
  | cons hchar _ ih =>
    rw [hchar.unescapeOnto_append, ih, List.reverse_append, List.reverse_reverse,
      List.append_assoc, Bytes.ofChars_cons]

/-- A text is read in whichever way it was written. -/
theorem unescape?_eq {text : String} (hchars : SpellsChars text.toList body) :
    unescape? body = some text := by
  rw [unescape?, hchars.unescapeOnto_eq, List.reverse_nil, List.nil_append, Option.bind_some,
    ← Bytes.ofText_eq_ofChars, Bytes.text?_ofText]

/-- What characters are written as may stand between quotes. -/
theorem isBody (hchars : SpellsChars chars body) : IsBody body := by
  induction hchars with
  | nil => exact .nil
  | cons hchar _ ih => exact hchar.isBody.append ih

end SpellsChars

/-- The body of the string that is printed for a text. -/
def bodyOf (text : String) : Bytes :=
  Bytes.ofChars (text.toList.flatMap escapeChar)

theorem isPlain_ofNat {c : Char} (hquote : c ≠ '"') (hescape : c ≠ '\\') (hcontrol : ¬ c.toNat < 0x20)
    (hascii : c.toNat < 128) : isPlain (UInt8.ofNat c.toNat) = true := by
  simp only [isPlain, Bool.and_eq_true, decide_eq_true_eq, bne_iff_ne]
  refine ⟨⟨?_, ?_⟩, ?_⟩
  · rw [UInt8.le_iff_toNat_le, Bytes.toNat_ofNat_of_ascii hascii]
    exact Nat.le_of_not_lt hcontrol
  · intro hbyte
    exact hquote (Bytes.eq_of_ascii_byte hascii (by decide) hbyte)
  · intro hbyte
    exact hescape (Bytes.eq_of_ascii_byte hascii (by decide) hbyte)

/-- The encoding of a character without special meaning is plain. -/
theorem isPlain_of_utf8EncodeChar {c : Char} (hquote : c ≠ '"') (hescape : c ≠ '\\')
    (hcontrol : ¬ c.toNat < 0x20) : ∀ byte ∈ String.utf8EncodeChar c, isPlain byte = true := by
  intro byte hbyte
  by_cases hascii : c.toNat < 128
  · rw [Bytes.utf8EncodeChar_of_ascii hascii, List.mem_singleton] at hbyte
    subst hbyte
    exact isPlain_ofNat hquote hescape hcontrol hascii
  · have hlarge := Bytes.le_of_mem_utf8EncodeChar (Nat.le_of_not_lt hascii) hbyte
    simp only [isPlain, Bool.and_eq_true, decide_eq_true_eq, bne_iff_ne]
    refine ⟨⟨?_, ?_⟩, ?_⟩
    · rw [UInt8.le_iff_toNat_le] at hlarge ⊢
      exact Nat.le_trans (by decide) hlarge
    · rintro rfl
      exact absurd hlarge (by decide)
    · rintro rfl
      exact absurd hlarge (by decide)

/-- A hexadecimal digit as a byte. -/
def hexByte (value : Nat) : UInt8 :=
  UInt8.ofNat (Hex.digit value).toNat

/-- The unit of a control character, as the printer writes it. -/
theorem spellsUnit_control {n : Nat} (hn : n < 0x20) :
    SpellsUnit n (Bytes.ofChars ['0', '0', Hex.digit (n / 16), Hex.digit (n % 16)]) := by
  have hcontrol : ∀ n < 0x20,
      Bytes.ofChars ['0', '0', Hex.digit (n / 16), Hex.digit (n % 16)] =
          [0x30, 0x30, hexByte (n / 16), hexByte (n % 16)] ∧
        hexUnit 0x30 0x30 (hexByte (n / 16)) (hexByte (n % 16)) = n ∧
        [0x30, 0x30, hexByte (n / 16), hexByte (n % 16)].all Lexer.isHexDigit = true := by
    decide
  obtain ⟨hbytes, hunit, hdigit⟩ := hcontrol n hn
  rw [hbytes]
  exact ⟨⟨_, _, _, _, rfl, hunit⟩, List.all_eq_true.mp hdigit⟩

/-- A character is printed in one of the ways to write it. -/
theorem spellsChar_escapeChar (c : Char) : SpellsChar c (Bytes.ofChars (escapeChar c)) := by
  unfold escapeChar
  split_ifs with hquote hescape hcontrol hbackspace htab hline hform hreturn
  · subst hquote
    exact .short rfl rfl
  · subst hescape
    exact .short rfl rfl
  · subst hbackspace
    exact .short rfl rfl
  · subst htab
    exact .short rfl rfl
  · subst hline
    exact .short rfl rfl
  · subst hform
    exact .short rfl rfl
  · subst hreturn
    exact .short rfl rfl
  · exact .unit (spellsUnit_control hcontrol)
  · rw [Bytes.ofChars_cons, Bytes.ofChars_nil, List.append_nil]
    exact .plain (isPlain_of_utf8EncodeChar hquote hescape hcontrol)

/-- The printer's way to write a text is one of the ways. -/
theorem spellsChars_bodyOf (text : String) : SpellsChars text.toList (bodyOf text) := by
  unfold bodyOf
  induction text.toList with
  | nil => exact .nil
  | cons c chars ih =>
    rw [List.flatMap_cons, Bytes.ofChars_append]
    exact .cons (spellsChar_escapeChar c) ih

end CheckHarness.Json
