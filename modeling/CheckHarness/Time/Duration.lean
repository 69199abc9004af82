namespace CheckHarness

/-- A span of time in nanoseconds. The number of whole seconds fits sixty-four bits. -/
structure Duration where
  nanoseconds : Nat
  inRange : nanoseconds < 18446744073709551616 * 1000000000 := by omega
  deriving DecidableEq, Repr

namespace Duration

theorem ext_nanoseconds {d e : Duration} (h : d.nanoseconds = e.nanoseconds) : d = e := by
  cases d
  cases e
  cases h
  rfl

/-- The span of that many nanoseconds, if its seconds fit. -/
def ofNanoseconds? (n : Nat) : Option Duration :=
  if h : n < 18446744073709551616 * 1000000000 then some ⟨n, h⟩ else none

def zero : Duration :=
  { nanoseconds := 0 }

def isZero (d : Duration) : Bool :=
  d.nanoseconds == 0

def ofMilliseconds (n : UInt64) : Duration :=
  { nanoseconds := n.toNat * 1000000, inRange := by have := n.toNat_lt; omega }

def ofSeconds (n : UInt64) : Duration :=
  { nanoseconds := n.toNat * 1000000000, inRange := by have := n.toNat_lt; omega }

/-- Seconds and further nanoseconds, which may make up more seconds. -/
def ofParts? (seconds : UInt64) (nanoseconds : UInt32) : Option Duration :=
  ofNanoseconds? (seconds.toNat * 1000000000 + nanoseconds.toNat)

/-- The whole seconds. -/
def seconds (d : Duration) : Nat :=
  d.nanoseconds / 1000000000

/-- The nanoseconds beyond the whole seconds. -/
def subsecond (d : Duration) : Nat :=
  d.nanoseconds % 1000000000

/-- The whole milliseconds. -/
def milliseconds (d : Duration) : Nat :=
  d.nanoseconds / 1000000

/-- The sum, if its seconds fit. -/
def add? (d e : Duration) : Option Duration :=
  ofNanoseconds? (d.nanoseconds + e.nanoseconds)

theorem subsecond_lt (d : Duration) : d.subsecond < 1000000000 := by
  simp only [subsecond]
  omega

theorem seconds_subsecond (d : Duration) : d.seconds * 1000000000 + d.subsecond = d.nanoseconds := by
  simp only [seconds, subsecond]
  omega

theorem milliseconds_ofMilliseconds (n : UInt64) : (ofMilliseconds n).milliseconds = n.toNat := by
  simp only [ofMilliseconds, milliseconds]
  omega

end Duration

end CheckHarness
