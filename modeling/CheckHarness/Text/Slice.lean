namespace CheckHarness.Text

/-- The text behind its first `n` bytes. -/
def dropBytes? : Nat → List Char → Option (List Char)
  | 0, text => some text
  | _ + 1, [] => none
  | n + 1, c :: rest => if c.utf8Size ≤ n + 1 then dropBytes? (n + 1 - c.utf8Size) rest else none

/-- The first `n` bytes of a text. -/
def takeBytes? : Nat → List Char → Option (List Char)
  | 0, _ => some []
  | _ + 1, [] => none
  | n + 1, c :: rest =>
    if c.utf8Size ≤ n + 1 then (takeBytes? (n + 1 - c.utf8Size) rest).map (c :: ·) else none

/-- The characters between two byte offsets. There is no cut inside a character or behind the end.
-/
def slice? (start stop : Nat) (text : List Char) : Option (List Char) :=
  (dropBytes? start text).bind (takeBytes? (stop - start))

end CheckHarness.Text
