import CheckHarness.Connection.Pipe

namespace CheckHarness

/-- Where the fill loop stands. It reads a socket into a pipe, never more than fits and never more
than one chunk at a time, until the stream ends, reading fails or the connection is cancelled. Then
it completes the pipe. -/
inductive Fill where
  /-- About to make room for a chunk. -/
  | starting
  /-- About to look for space. -/
  | checking
  /-- Waiting for space. -/
  | waiting
  /-- Reading up to that many bytes from the socket. -/
  | reading (want : Nat)
  /-- About to commit what was read. -/
  | holding (data : Bytes)
  /-- About to complete the pipe. -/
  | finishing
  | ended
  /-- There was no room for a chunk. Nothing was read, and the pipe is left as it was. -/
  | crashed
  deriving DecidableEq, Repr

/-- What the fill loop may do next. -/
inductive FillMove where
  /-- The next step that depends on nothing but the pipe. -/
  | proceed
  /-- The socket delivers that many bytes. -/
  | deliver (n : Nat)
  /-- The peer has ended its stream. -/
  | streamEnd
  | readError
  /-- The cancellation is noticed. -/
  | notice
  deriving DecidableEq, Repr

namespace Fill

/-- A pipe with its fill loop, and what the socket has still to deliver. -/
structure State where
  fill : Fill
  pipe : Pipe
  /-- The bytes of the peer's stream that are not read yet. -/
  unread : Bytes
  deriving DecidableEq, Repr

/-- Whether the fill loop makes no more moves. -/
def stopped : Fill → Bool
  | .ended | .crashed => true
  | _ => false

/-- The state after a move, if the move is possible. -/
def step (chunk : Nat) (cancelled : Bool) (state : State) : FillMove → Option State
  | .proceed =>
    match state.fill with
    | .starting =>
      if chunk < Bytes.roomBound then some { state with fill := .checking }
      else some { state with fill := .crashed }
    | .checking =>
      if 0 < state.pipe.space then some { state with fill := .reading (min state.pipe.space chunk) }
      else some { state with fill := .waiting }
    | .waiting =>
      if state.pipe.writable then
        some { state with fill := .checking, pipe := state.pipe.pollWritable.2 }
      else none
    | .holding data => some { state with fill := .checking, pipe := state.pipe.commit data }
    | .finishing => some { state with fill := .ended, pipe := state.pipe.complete }
    | _ => none
  | .deliver n =>
    match state.fill with
    | .reading want =>
      if 0 < n ∧ n ≤ want ∧ n ≤ state.unread.length then
        some { state with fill := .holding (state.unread.take n), unread := state.unread.drop n }
      else none
    | _ => none
  | .streamEnd =>
    match state.fill with
    | .reading _ => if state.unread = [] then some { state with fill := .finishing } else none
    | _ => none
  | .readError =>
    match state.fill with
    | .reading _ => some { state with fill := .finishing }
    | _ => none
  | .notice =>
    if cancelled then
      match state.fill with
      | .waiting | .reading _ => some { state with fill := .finishing }
      | _ => none
    else none

end Fill

end CheckHarness
