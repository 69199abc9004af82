import CheckHarness.Text.Numeral
import CheckHarness.Time.Duration.Unit

namespace CheckHarness.Duration

/-- How the count of a unit is written. -/
structure PartFormat where
  unit : Unit
  name : String
  plural : Bool

/-- The units of a written span, from the largest to the smallest. -/
def partFormats : List PartFormat :=
  [⟨.year, "year", true⟩, ⟨.month, "month", true⟩, ⟨.day, "day", true⟩, ⟨.hour, "h", false⟩,
    ⟨.minute, "m", false⟩, ⟨.second, "s", false⟩, ⟨.millisecond, "ms", false⟩,
    ⟨.microsecond, "us", false⟩, ⟨.nanosecond, "ns", false⟩]

def writePart (format : PartFormat) (count : Nat) : String :=
  String.ofList (Numeral.digits count) ++ format.name ++ (if format.plural && 1 < count then "s" else "")

/-- The parts that are not zero: of each unit as many as fit into what the larger ones leave. -/
def writeParts : List PartFormat → Nat → List String
  | [], _ => []
  | format :: formats, n =>
    let count := n / format.unit.nanoseconds
    let parts := writeParts formats (n % format.unit.nanoseconds)
    if count = 0 then parts else writePart format count :: parts

/-- A span of time in words: the parts that are not zero, from years down to nanoseconds, with
blanks between them. Years, months and days are counted in words, with a plural. -/
def write (d : Duration) : String :=
  if d.isZero then "0s" else " ".intercalate (writeParts partFormats d.nanoseconds)

end CheckHarness.Duration
