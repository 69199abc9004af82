import CheckHarness.Execution.Guard

namespace CheckHarness

/-- What an operation does, step by step. Time passes only while it waits. -/
inductive Operation where
  | finish (conclusion : Conclusion)
  | crash (payload : CrashPayload)
  /-- Goes on by the time that is left until the deadline. -/
  | consult (next : Nat → Operation)
  | sleep (duration : Nat) (next : Operation)
  | awaitCancellation (next : Operation)
  | log (event : Log.Event) (next : Operation)
  | cancelTask (next : Operation)
  | cancelCaller (next : Operation)

namespace Operation

/-- The operation that concludes success. -/
def succeed (attackInfo : Option String) : Operation :=
  .finish (.ok (.success attackInfo))

/-- No wait for a time to pass lasts longer than this: thirty years. -/
def longestWait : Nat :=
  946080000000

/-- How long a wait for so many milliseconds lasts. -/
def wait (duration : Nat) : Nat :=
  min duration longestWait

/-- The turns of an operation from a poll on that begins at `now`; `poll` is what it has done in
this poll already. One that waits after it cancelled its task is woken at once. -/
def turnsFrom (deadline now : Nat) (poll : Poll) : Operation → List Turn
  | .finish conclusion => [⟨now, .fresh, { poll with ending := some (.returned conclusion) }⟩]
  | .crash payload => [⟨now, .fresh, { poll with ending := some (.crashed payload) }⟩]
  | .consult next => turnsFrom deadline now poll (next (deadline - now))
  | .sleep duration next =>
    if duration = 0 then turnsFrom deadline now poll next
    else if poll.cancels.cancelled then [⟨now, .fresh, poll⟩, ⟨now, .fresh, .idle⟩]
    else ⟨now, .fresh, poll⟩ :: turnsFrom deadline (now + wait duration) .idle next
  | .awaitCancellation next =>
    if poll.cancels.cancelled then turnsFrom deadline now poll next else [⟨now, .fresh, poll⟩]
  | .log event next =>
    turnsFrom deadline now { poll with events := poll.events ++ [event] } next
  | .cancelTask next =>
    turnsFrom deadline now { poll with cancels := poll.cancels.join ⟨false, true⟩ } next
  | .cancelCaller next =>
    turnsFrom deadline now { poll with cancels := poll.cancels.join ⟨true, false⟩ } next

/-- Puts a turn after all that are not later. -/
def insertTurn (turn : Turn) : List Turn → List Turn
  | [] => [turn]
  | other :: turns =>
    if other.now ≤ turn.now then other :: insertTurn turn turns else turn :: other :: turns

/-- The turn that the deadline makes. -/
def deadlineTurn (deadline : Nat) : Turn :=
  ⟨deadline, .fresh, .idle⟩

/-- The turn that is made by cancelling the caller's token. -/
def cancellationTurn (time : Nat) : Turn :=
  ⟨time, ⟨true, false⟩, .idle⟩

/-- All turns of an operation that starts at time zero. The caller may cancel after a wait. -/
def turns (operation : Operation) (deadline : Nat) (cancellation : Option Nat) : List Turn :=
  let turns := insertTurn (deadlineTurn deadline) (operation.turnsFrom deadline 0 .idle)
  match cancellation with
  | none => turns
  | some time => insertTurn (cancellationTurn (wait time)) turns

end Operation

end CheckHarness
