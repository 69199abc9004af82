import CheckHarness.Text.Numeral
import CheckHarness.Time.Duration

namespace CheckHarness.Duration

/-- The decimal digits of a fraction less than one, without the zeros at the end: the digits of the
sum of one and the fraction, without the one. -/
def fractionDigits (rest unit : Nat) : List Char :=
  (((Numeral.digits (unit + rest)).drop 1).reverse.dropWhile (· = '0')).reverse

/-- A count of nanoseconds in units of the given length, which is a power of ten. -/
def inUnit (n length : Nat) (unit : String) : String :=
  let fraction := fractionDigits (n % length) length
  String.ofList (Numeral.digits (n / length)) ++
    (if fraction.isEmpty then "" else "." ++ String.ofList fraction) ++ unit

/-- A span of time in one unit, as log entries show it: seconds, milliseconds, microseconds or
nanoseconds, whichever is the largest with a whole part, and a decimal fraction for the rest. -/
def brief (d : Duration) : String :=
  let n := d.nanoseconds
  if 1000000000 ≤ n then inUnit n 1000000000 "s"
  else if 1000000 ≤ n then inUnit n 1000000 "ms"
  else if 1000 ≤ n then inUnit n 1000 "µs"
  else inUnit n 1 "ns"

end CheckHarness.Duration
