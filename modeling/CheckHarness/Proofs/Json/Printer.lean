import CheckHarness.Json.Decode
import CheckHarness.Proofs.Json.Escape
import CheckHarness.Proofs.Json.Tree
import CheckHarness.Proofs.Text.Numeral

namespace CheckHarness.Json

mutual

/-- The tree of a value's printed form. -/
def node : Json → Node
  | .null => .null
  | .bool value => .bool value
  | .nat value => .number (Bytes.ofChars (Numeral.digits value))
  | .str text => .string (bodyOf text)
  | .arr elements => .array (elementNodes elements)
  | .obj members => .object (memberNodes members)

def elementNodes : List Json → List Node
  | [] => []
  | element :: elements => element.node :: elementNodes elements

def memberNodes : List (String × Json) → List (Bytes × Node)
  | [] => []
  | (key, value) :: members => (bodyOf key, value.node) :: memberNodes members

end

/-- Each digit is one byte. -/
theorem ofChars_digits {chars : List Char} (hchars : ∀ c ∈ chars, c.isDigit = true) :
    Bytes.ofChars chars = chars.map fun c => UInt8.ofNat c.toNat := by
  induction chars with
  | nil => rfl
  | cons c chars ih =>
    have hc := Numeral.toNat_of_isDigit (hchars c List.mem_cons_self)
    rw [Bytes.ofChars_cons, Bytes.utf8EncodeChar_of_ascii (by omega),
      ih (fun other hother => hchars other (List.mem_cons_of_mem c hother)), List.map_cons,
      List.singleton_append]

theorem isDigit_ofNat {c : Char} (hc : c.isDigit = true) :
    Lexer.isDigit (UInt8.ofNat c.toNat) = true := by
  have hbounds := Numeral.toNat_of_isDigit hc
  simp only [Lexer.isDigit, Bool.and_eq_true, decide_eq_true_eq, UInt8.le_iff_toNat_le]
  rw [Bytes.toNat_ofNat_of_ascii (by omega)]
  exact hbounds

/-- Digits are encoded as the grammar has them. -/
theorem areDigits_ofNat {chars : List Char} (hchars : ∀ c ∈ chars, c.isDigit = true) :
    AreDigits (chars.map fun c => UInt8.ofNat c.toNat) := by
  intro byte hbyte
  obtain ⟨c, hc, rfl⟩ := List.mem_map.mp hbyte
  exact isDigit_ofNat (hchars c hc)

/-- The digits of a number have no leading zero. -/
theorem wholePart_digits (n : Nat) : WholePart (Bytes.ofChars (Numeral.digits n)) := by
  by_cases hn : n = 0
  · subst hn
    exact .zero
  · obtain ⟨c, rest, hdigits⟩ := List.exists_cons_of_ne_nil (Numeral.digits_ne_nil n)
    have hchars : ∀ other ∈ c :: rest, other.isDigit = true := by
      rw [← hdigits]
      exact fun other => Numeral.isDigit_of_mem_digits
    have hfirst : c ≠ '0' := by
      have hhead := Numeral.head_digits_ne_zero hn
      rw [hdigits] at hhead
      simpa using hhead
    have hc := hchars c List.mem_cons_self
    have hbounds := Numeral.toNat_of_isDigit hc
    rw [hdigits, ofChars_digits hchars, List.map_cons]
    refine .digits (isDigit_ofNat hc) ?_
      (areDigits_ofNat fun other hother => hchars other (List.mem_cons_of_mem c hother))
    intro hbyte
    exact hfirst (Bytes.eq_of_ascii_byte (by omega) (by decide) hbyte)

theorem isNumber_digits (n : Nat) : IsNumber (Bytes.ofChars (Numeral.digits n)) := by
  simpa using IsNumber.mk (.inl rfl) (wholePart_digits n) .absent .absent

/-- Blanks around a value may be left out. -/
theorem writesSpaced {node : Node} {text : Bytes} (hwrites : Writes node text) :
    WritesSpaced node text := by
  simpa using WritesSpaced.mk blanks_nil hwrites blanks_nil

/-- What is printed for a member. -/
theorem writesMember_chars (key : String) {value : Json}
    (hvalue : Writes value.node (Bytes.ofChars value.chars)) :
    WritesMember (bodyOf key) value.node (Bytes.ofChars (quote key ++ ':' :: value.chars)) := by
  have hmember := WritesMember.mk blanks_nil (spellsChars_bodyOf key).isBody blanks_nil
    (writesSpaced hvalue)
  have hquote : Bytes.ofChars (quote key) = 0x22 :: (bodyOf key ++ [0x22]) := by
    simp only [quote, Bytes.ofChars_cons, Bytes.ofChars_append]
    rfl
  rw [Bytes.ofChars_append, hquote]
  simp only [List.nil_append, List.cons_append, List.append_assoc] at hmember ⊢
  exact hmember

mutual

/-- The compact form is a text of the value's tree. -/
theorem writes_chars : ∀ value : Json, Writes value.node (Bytes.ofChars value.chars)
  | .null => .null
  | .bool true => .true
  | .bool false => .false
  | .nat value => .number (isNumber_digits value)
  | .str text => by
    have hstring := Writes.string (spellsChars_bodyOf text).isBody
    simp only [node, chars, quote, Bytes.ofChars_cons, Bytes.ofChars_append]
    exact hstring
  | .arr [] => .emptyArray nofun
  | .arr (element :: elements) => by
    have harray := Writes.array (writesElements_chars elements (writes_chars element))
    simp only [node, elementNodes, chars, elementChars, Bytes.ofChars_cons, Bytes.ofChars_append]
    exact harray
  | .obj [] => .emptyObject nofun
  | .obj ((key, value) :: members) => by
    have hmember := writesMember_chars key (writes_chars value)
    have hobject := Writes.object (writesMembers_chars members hmember)
    simp only [node, memberNodes, chars, memberChars, Bytes.ofChars_cons, Bytes.ofChars_append]
    exact hobject

/-- What is printed for the elements after one that is written. -/
theorem writesElements_chars : ∀ (elements : List Json) {element : Node} {piece : List Char},
    Writes element (Bytes.ofChars piece) →
      WritesElements element (elementNodes elements)
        (Bytes.ofChars (separate [','] (piece :: elementChars elements)))
  | [], _, _, helement => .last (writesSpaced helement)
  | next :: elements, _, piece, helement => by
    have hmore := writesElements_chars elements (writes_chars next)
    have hcomma := WritesElements.comma (writesSpaced helement) hmore
    simp only [elementNodes, elementChars, separate, Bytes.ofChars_append, List.append_assoc]
    exact hcomma

/-- Members are printed as the grammar has them, with commas between them. -/
theorem writesMembers_chars : ∀ (members : List (String × Json)) {key : Bytes} {value : Node}
    {piece : List Char}, WritesMember key value (Bytes.ofChars piece) →
      WritesMembers key value (memberNodes members)
        (Bytes.ofChars (separate [','] (piece :: memberChars members)))
  | [], _, _, _, hmember => .last hmember
  | (name, next) :: members, _, _, piece, hmember => by
    have hmore := writesMembers_chars members (writesMember_chars name (writes_chars next))
    have hcomma := WritesMembers.comma hmember hmore
    simp only [memberNodes, memberChars, separate, Bytes.ofChars_append, List.append_assoc]
    exact hcomma

end

/-- What is printed for a value is one of the texts of its tree. -/
theorem writes_encode (value : Json) : WritesSpaced value.node value.encode := by
  rw [encode, compact, Bytes.ofText_ofList]
  exact writesSpaced (writes_chars value)

end CheckHarness.Json
