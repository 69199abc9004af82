import CheckHarness.Text.Bytes

namespace CheckHarness

/-- A bounded queue of bytes between the reader of a socket and a checker. Each side has a signal
with room for one permit. A permit is stored when the other side changed something and consumed by
the wait that it lets through, so a change between a look at the pipe and the wait that follows is
never missed. -/
structure Pipe where
  capacity : Nat
  buffer : Bytes
  /-- Whether the stream has ended. -/
  completed : Bool
  /-- The permit for the consumer. -/
  readable : Bool
  /-- The permit for the producer. -/
  writable : Bool
  deriving DecidableEq, Repr

namespace Pipe

def empty (capacity : Nat) : Pipe :=
  ⟨capacity, [], false, false, false⟩

/-- A new pipe, if it can have the room. -/
def ofCapacity? (capacity : Nat) : Option Pipe :=
  if capacity < Bytes.roomBound then some (empty capacity) else none

/-- How many bytes fit in. -/
def space (pipe : Pipe) : Nat :=
  pipe.capacity - pipe.buffer.length

/-- Appends bytes; whether they fit is for the producer to see to. -/
def commit (pipe : Pipe) (data : Bytes) : Pipe :=
  { pipe with buffer := pipe.buffer ++ data, readable := true }

def complete (pipe : Pipe) : Pipe :=
  { pipe with completed := true, readable := true }

/-- Removes up to `n` bytes from the front. Only if some were removed, the producer is told. -/
def take (pipe : Pipe) (n : Nat) : Bytes × Pipe :=
  (pipe.buffer.take n,
    { pipe with
      buffer := pipe.buffer.drop n
      writable := pipe.writable || !(pipe.buffer.take n).isEmpty })

/-- Whether the consumer's wait is let through, which uses up the permit. -/
def pollReadable (pipe : Pipe) : Bool × Pipe :=
  (pipe.readable, { pipe with readable := false })

/-- Whether the producer's wait is let through, which uses up the permit. -/
def pollWritable (pipe : Pipe) : Bool × Pipe :=
  (pipe.writable, { pipe with writable := false })

theorem take_fst_append_buffer (pipe : Pipe) (n : Nat) :
    (pipe.take n).1 ++ (pipe.take n).2.buffer = pipe.buffer :=
  List.take_append_drop n pipe.buffer

end Pipe

end CheckHarness
