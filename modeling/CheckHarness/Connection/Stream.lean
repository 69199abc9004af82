import CheckHarness.Connection.Scanner

namespace CheckHarness

/-- What a receive asks for. -/
inductive Receive where
  /-- That many bytes. -/
  | exact (n : Nat)
  /-- Everything up to and including the first occurrence of the delimiter. -/
  | until (delimiter : Bytes)
  deriving DecidableEq, Repr

namespace Receive

/-- How many bytes a receive makes room for before it looks for any. -/
def room : Receive → Nat
  | .exact n => n
  | .until _ => 0

/-- Why nothing is found when the stream ends with that many bytes left. -/
def endCause (buffered : Nat) : String :=
  s!"stream ended before delimiter ({buffered} bytes buffered)"

/-- Why nothing is found when the buffer holds that many bytes and takes no more. -/
def fullCause (buffered : Nat) : String :=
  s!"buffer full ({buffered} bytes) without delimiter"

/-- What is received from a stream that is there as a whole, and the rest of the stream. A
connection delivers the same, however the stream arrives. A delimiter has to end within the capacity
of the buffer. -/
def fromStream? (capacity : Nat) (stream : Bytes) : Receive → Option (Bytes × Bytes)
  | .exact n => if n ≤ stream.length then some (stream.splitAt n) else none
  | .until delimiter =>
    match endOfFirst? delimiter 0 stream with
    | some index => if index ≤ capacity then some (stream.splitAt index) else none
    | none => none

/-- What a receive comes to. -/
inductive Answer where
  | received (data : Bytes)
  | failed
  | crashed
  deriving DecidableEq, Repr

/-- The answers to one receive after the other. After a failure every receive fails. One that there
is no room for crashes instead; it takes nothing, and the next one goes on where it stood. -/
def allFromStream (capacity : Nat) : Option Bytes → List Receive → List Answer
  | _, [] => []
  | none, _ :: receives => .failed :: allFromStream capacity none receives
  | some stream, receive :: receives =>
    if Bytes.roomBound ≤ receive.room then .crashed :: allFromStream capacity (some stream) receives
    else
      match receive.fromStream? capacity stream with
      | some (received, rest) => .received received :: allFromStream capacity (some rest) receives
      | none => .failed :: allFromStream capacity none receives

end Receive

end CheckHarness
