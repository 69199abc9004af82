namespace CheckHarness.Toml

/-- A value of a document. Numbers with a fraction and dates keep their written form, because
nothing here computes with them. -/
inductive Value where
  | string (text : String)
  | integer (value : Int)
  | float (lexeme : String)
  | boolean (value : Bool)
  | datetime (lexeme : String)
  | array (elements : List Value)
  | table (entries : List (String × Value))
  deriving Repr, Inhabited

/-- Integers are less than this, and not less than its negative. -/
def integerBound : Nat :=
  9223372036854775808

end CheckHarness.Toml
