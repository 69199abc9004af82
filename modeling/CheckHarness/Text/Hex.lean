namespace CheckHarness.Hex

/-- The digit of a value below sixteen, in lower case. -/
def digit (value : Nat) : Char :=
  if value < 10 then Char.ofNat ('0'.toNat + value) else Char.ofNat ('a'.toNat + value - 10)

/-- The value of a digit in either case. -/
def value? (c : Char) : Option Nat :=
  if c.isDigit then some (c.toNat - '0'.toNat)
  else if 'a' ≤ c && c ≤ 'f' then some (c.toNat - 'a'.toNat + 10)
  else if 'A' ≤ c && c ≤ 'F' then some (c.toNat - 'A'.toNat + 10)
  else none

theorem value?_digit {value : Nat} (h : value < 16) : value? (digit value) = some value := by
  decide +revert

end CheckHarness.Hex
