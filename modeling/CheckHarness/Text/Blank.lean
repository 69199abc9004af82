import CheckHarness.Text.Ranges

namespace CheckHarness.Text

/-- The code points with the property `White_Space`, as closed ranges in ascending order. -/
def blankRanges : List (Nat × Nat) :=
  [(0x09, 0x0D), (0x20, 0x20), (0x85, 0x85), (0xA0, 0xA0), (0x1680, 0x1680), (0x2000, 0x200A),
    (0x2028, 0x2029), (0x202F, 0x202F), (0x205F, 0x205F), (0x3000, 0x3000)]

/-- Whether a character is blank, which it is with the Unicode property `White_Space`. -/
def isBlank (c : Char) : Bool :=
  inRanges blankRanges c

/-- Whether nothing is left of a text once it is trimmed. -/
def isBlankText (text : String) : Bool :=
  text.toList.all isBlank

/-- A text without the blanks at its two ends. -/
def trim (text : List Char) : List Char :=
  ((text.dropWhile isBlank).reverse.dropWhile isBlank).reverse

end CheckHarness.Text
