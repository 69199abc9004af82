import CheckHarness.Time.Duration

namespace CheckHarness.Duration

/-- The units that spans of time are written in. A month is a twelfth of a year, and a year has
365.25 days. -/
inductive Unit where
  | nanosecond
  | microsecond
  | millisecond
  | second
  | minute
  | hour
  | day
  | week
  | month
  | year
  deriving DecidableEq, Repr

namespace Unit

/-- The length of a unit in nanoseconds. -/
def nanoseconds : Unit → Nat
  | .nanosecond => 1
  | .microsecond => 1000
  | .millisecond => 1000000
  | .second => 1000000000
  | .minute => 60 * 1000000000
  | .hour => 3600 * 1000000000
  | .day => 86400 * 1000000000
  | .week => 604800 * 1000000000
  | .month => 2630016 * 1000000000
  | .year => 31557600 * 1000000000

/-- The grain of a unit's fractions in nanoseconds: up to minutes a fraction has to be a whole
number of nanoseconds, from hours on a whole number of seconds. -/
def grain : Unit → Nat
  | .nanosecond | .microsecond | .millisecond | .second | .minute => 1
  | .hour | .day | .week | .month | .year => 1000000000

/-- Whether the unit is counted in nanoseconds and not in seconds. -/
def isSubsecond : Unit → Bool
  | .nanosecond | .microsecond | .millisecond => true
  | _ => false

/-- The names of each unit. -/
def names : List (Unit × List String) :=
  [(.nanosecond, ["nanos", "nsec", "ns"]), (.microsecond, ["usec", "us", "µs"]),
    (.millisecond, ["millis", "msec", "ms"]), (.second, ["seconds", "second", "secs", "sec", "s"]),
    (.minute, ["minutes", "minute", "min", "mins", "m"]), (.hour, ["hours", "hour", "hr", "hrs", "h"]),
    (.day, ["days", "day", "d"]), (.week, ["weeks", "week", "wk", "wks", "w"]),
    (.month, ["months", "month", "M"]), (.year, ["years", "year", "yr", "yrs", "y"])]

def ofName? (name : String) : Option Unit :=
  (names.find? fun entry => entry.2.contains name).map Prod.fst

end Unit

end CheckHarness.Duration
