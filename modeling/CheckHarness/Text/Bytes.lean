namespace CheckHarness

/-- A byte string, as it travels over a socket or arrives in a request body. -/
abbrev Bytes := List UInt8

namespace Bytes

/-- There is never room for this many bytes or more: whoever asks for it crashes. -/
def roomBound : Nat :=
  9223372036854775808

theorem roomBound_pos : 0 < roomBound := by decide

/-- The UTF-8 encoding of a text. -/
def ofText (text : String) : Bytes :=
  text.toByteArray.data.toList

/-- The text that the bytes encode, if they are well-formed UTF-8. -/
def text? (bytes : Bytes) : Option String :=
  String.fromUTF8? ⟨bytes.toArray⟩

/-- Every text is read back from its own encoding. -/
theorem text?_ofText (text : String) : text? (ofText text) = some text := by
  have h : (⟨(ofText text).toArray⟩ : ByteArray) = text.toByteArray := by
    simp [ofText]
  simp [text?, h, String.fromUTF8?, String.isValidUTF8, String.fromUTF8]

end Bytes

end CheckHarness
