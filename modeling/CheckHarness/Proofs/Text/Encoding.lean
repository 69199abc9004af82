import CheckHarness.Text.Bytes

namespace CheckHarness.Bytes

/-- The encoding of characters one after the other. An ASCII character is one byte, and every byte
of another character lies outside ASCII, so an ASCII byte always stands for a character of its own.
-/
def ofChars (chars : List Char) : Bytes :=
  chars.flatMap String.utf8EncodeChar

@[simp]
theorem ofChars_nil : ofChars [] = [] :=
  rfl

@[simp]
theorem ofChars_cons (c : Char) (chars : List Char) :
    ofChars (c :: chars) = String.utf8EncodeChar c ++ ofChars chars :=
  rfl

/-- Texts are encoded one after the other. -/
@[simp]
theorem ofChars_append (chars more : List Char) :
    ofChars (chars ++ more) = ofChars chars ++ ofChars more :=
  List.flatMap_append

theorem ofText_ofList (chars : List Char) : ofText (String.ofList chars) = ofChars chars := by
  simp [ofText, ofChars, List.utf8Encode]

theorem ofText_eq_ofChars (text : String) : ofText text = ofChars text.toList := by
  rw [← ofText_ofList, String.ofList_toList]

theorem ofText_append (text more : String) : ofText (text ++ more) = ofText text ++ ofText more := by
  simp only [ofText_eq_ofChars, String.toList_append, ofChars_append]

/-- No two texts have the same encoding. -/
theorem ofText_injective {text other : String} (h : ofText text = ofText other) : text = other := by
  have hread := congrArg text? h
  simpa only [text?_ofText, Option.some.injEq] using hread

/-- Bytes are read as a text just if they are its encoding. -/
theorem text?_eq_some_iff {bytes : Bytes} {text : String} :
    text? bytes = some text ↔ bytes = ofText text := by
  constructor
  · intro hread
    simp only [text?, String.fromUTF8?, Option.dite_none_right_eq_some, Option.some.injEq] at hread
    obtain ⟨_, rfl⟩ := hread
    simp [ofText, String.fromUTF8]
  · rintro rfl
    exact text?_ofText text

/-- An ASCII character is one byte. -/
theorem utf8EncodeChar_of_ascii {c : Char} (hc : c.toNat < 128) :
    String.utf8EncodeChar c = [UInt8.ofNat c.toNat] := by
  have hle : c.val.toNat ≤ 127 := by
    unfold Char.toNat at hc
    omega
  simp only [String.utf8EncodeChar, if_pos hle, Char.toNat]

/-- An ASCII character cuts the encoding of a text where it stands. -/
theorem ofText_of_ascii {text : String} {before after : List Char} {c : Char} (hc : c.toNat < 128)
    (htext : text.toList = before ++ c :: after) :
    ofText text = ofChars before ++ UInt8.ofNat c.toNat :: ofChars after := by
  rw [ofText_eq_ofChars, htext, ofChars_append, ofChars_cons, utf8EncodeChar_of_ascii hc,
    List.singleton_append]

theorem toNat_ofNat_of_ascii {c : Char} (hc : c.toNat < 128) :
    (UInt8.ofNat c.toNat).toNat = c.toNat := by
  rw [UInt8.toNat_ofNat']
  omega

/-- ASCII characters of the same byte are the same. -/
theorem eq_of_ascii_byte {c other : Char} (hc : c.toNat < 128) (hother : other.toNat < 128)
    (hbyte : UInt8.ofNat c.toNat = UInt8.ofNat other.toNat) : c = other := by
  have hnat := congrArg UInt8.toNat hbyte
  rw [toNat_ofNat_of_ascii hc, toNat_ofNat_of_ascii hother] at hnat
  exact Char.toNat_inj.mp hnat

/-- The bytes of a character outside ASCII are outside ASCII. -/
theorem le_of_mem_utf8EncodeChar {c : Char} {byte : UInt8} (hc : 128 ≤ c.toNat)
    (hbyte : byte ∈ String.utf8EncodeChar c) : 0x80 ≤ byte := by
  have hlarge : ¬ c.val.toNat ≤ 127 := by
    unfold Char.toNat at hc
    omega
  simp only [String.utf8EncodeChar, if_neg hlarge] at hbyte
  rw [UInt8.le_iff_toNat_le]
  change 128 ≤ byte.toNat
  split at hbyte
  · simp only [List.mem_cons, List.not_mem_nil, or_false] at hbyte
    rcases hbyte with rfl | rfl <;> rw [UInt8.toNat_ofNat'] <;> omega
  · split at hbyte
    · simp only [List.mem_cons, List.not_mem_nil, or_false] at hbyte
      rcases hbyte with rfl | rfl | rfl <;> rw [UInt8.toNat_ofNat'] <;> omega
    · simp only [List.mem_cons, List.not_mem_nil, or_false] at hbyte
      rcases hbyte with rfl | rfl | rfl | rfl <;> rw [UInt8.toNat_ofNat'] <;> omega

/-- An ASCII byte in the encoding of a text is a character of the text. -/
theorem mem_ofChars_iff {c : Char} (hc : c.toNat < 128) {chars : List Char} :
    UInt8.ofNat c.toNat ∈ ofChars chars ↔ c ∈ chars := by
  induction chars with
  | nil => simp
  | cons other chars ih =>
    rw [ofChars_cons, List.mem_append, ih, List.mem_cons]
    apply or_congr_left
    by_cases hother : other.toNat < 128
    · rw [utf8EncodeChar_of_ascii hother, List.mem_singleton]
      constructor
      · exact eq_of_ascii_byte hc hother
      · rintro rfl
        rfl
    · constructor
      · intro hbyte
        have hle := le_of_mem_utf8EncodeChar (Nat.le_of_not_lt hother) hbyte
        rw [UInt8.le_iff_toNat_le, toNat_ofNat_of_ascii hc] at hle
        exact absurd hle (Nat.not_le_of_lt hc)
      · rintro rfl
        exact absurd hc hother

/-- The byte of an ASCII character does not occur in the encoding of a text without it. -/
theorem not_mem_ofText {c : Char} (hc : c.toNat < 128) {text : String} (htext : c ∉ text.toList) :
    UInt8.ofNat c.toNat ∉ ofText text := by
  rw [ofText_eq_ofChars, mem_ofChars_iff hc]
  exact htext

/-- The encoding of a text ends with an ASCII byte only if the text ends with this character. -/
theorem getLast?_ofChars_ne {c : Char} (hc : c.toNat < 128) {chars : List Char}
    (hlast : chars.getLast? ≠ some c) :
    (ofChars chars).getLast? ≠ some (UInt8.ofNat c.toNat) := by
  rcases List.eq_nil_or_concat chars with rfl | ⟨front, other, rfl⟩
  · simp
  · have hother : other ≠ c := by simpa using hlast
    intro hbyte
    have hencoded : (ofChars [other]).getLast? = some (UInt8.ofNat c.toNat) := by
      rw [List.concat_eq_append, ofChars_append] at hbyte
      have hnonempty : ofChars [other] ≠ [] := by
        simp [ofChars, String.utf8EncodeChar_ne_nil]
      rwa [List.getLast?_append, List.getLast?_eq_some_getLast hnonempty, Option.some_or,
        ← List.getLast?_eq_some_getLast hnonempty] at hbyte
    have hmem := (mem_ofChars_iff hc).mp (List.mem_of_getLast? hencoded)
    exact hother (List.mem_singleton.mp hmem).symm

/-- An ASCII text has as many bytes as characters. -/
theorem length_ofChars_of_ascii {chars : List Char} (hchars : ∀ c ∈ chars, c.toNat < 128) :
    (ofChars chars).length = chars.length := by
  induction chars with
  | nil => rfl
  | cons c chars ih =>
    have hrest := ih fun other hother => hchars other (List.mem_cons_of_mem c hother)
    rw [ofChars_cons, utf8EncodeChar_of_ascii (hchars c List.mem_cons_self), List.length_append,
      hrest, List.length_singleton, List.length_cons, Nat.add_comm]

end CheckHarness.Bytes
