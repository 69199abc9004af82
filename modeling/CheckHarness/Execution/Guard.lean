import CheckHarness.Checker.Outcome
import CheckHarness.Log.Event

namespace CheckHarness

/-- What a crashing operation leaves behind. -/
inductive CrashPayload where
  | text (message : String)
  | other
  deriving DecidableEq, Repr

namespace CrashPayload

def message : CrashPayload → String
  | .text message => message
  | .other => "unknown panic payload"

end CrashPayload

/-- How an operation ends. -/
inductive Ending where
  | returned (conclusion : Conclusion)
  | crashed (payload : CrashPayload)
  deriving Repr

namespace Ending

/-- A crash is a fault inside the checker. -/
def conclusion : Ending → Conclusion
  | .returned conclusion => conclusion
  | .crashed payload => .error (.internal ("checker panicked: " ++ payload.message))

end Ending

/-- The two tokens of a run: the caller's, and the task's own below it. -/
structure Tokens where
  /-- Whether the caller's token was cancelled. -/
  caller : Bool
  /-- Whether the task's token was cancelled by itself. -/
  own : Bool
  deriving DecidableEq, Repr

namespace Tokens

def fresh : Tokens :=
  ⟨false, false⟩

/-- Whether the task is cancelled: cancelling the caller's token reaches the task's. -/
def cancelled (tokens : Tokens) : Bool :=
  tokens.caller || tokens.own

/-- The tokens after others were cancelled too. -/
def join (tokens others : Tokens) : Tokens :=
  ⟨tokens.caller || others.caller, tokens.own || others.own⟩

/-- The tokens after the task's own was cancelled. -/
def cancelOwn (tokens : Tokens) : Tokens :=
  { tokens with own := true }

end Tokens

/-- What happens while an operation is polled. -/
structure Poll where
  /-- The tokens that are cancelled meanwhile, by the operation or by others. -/
  cancels : Tokens
  duration : Nat
  /-- What the operation logs. -/
  events : List Log.Event
  /-- How the operation ends, if it does. -/
  ending : Option Ending
  deriving Repr

namespace Poll

/-- A poll in which nothing happens. -/
def idle : Poll :=
  ⟨.fresh, 0, [], none⟩

end Poll

/-- One turn of a run. -/
structure Turn where
  now : Nat
  /-- The tokens that were cancelled since the turn before. -/
  cancelled : Tokens
  /-- What happens if the operation is polled in this turn. -/
  poll : Poll
  deriving Repr

/-- How a guarded run ended. The operation runs in turns. In each turn cancellation is looked at
first, then the deadline, and only then the operation is polled; so an operation that is ready in
the turn in which its task is cancelled or out of time is not heard any more. A crash of the
operation is contained and counts as a fault of the checker. Times are in milliseconds since the run
began. -/
structure Guarded where
  conclusion : Conclusion
  tokens : Tokens
  /-- When the run ended. -/
  time : Nat
  /-- Whether the operation was polled at all. -/
  started : Bool
  /-- What the operation logged. -/
  events : List Log.Event
  deriving Repr

namespace Guarded

/-- What is known of a run in which the operation has not ended. -/
structure Progress where
  tokens : Tokens
  started : Bool
  events : List Log.Event
  deriving DecidableEq, Repr

namespace Progress

/-- A run that has not begun. -/
def initial (tokens : Tokens) : Progress :=
  ⟨tokens, false, []⟩

/-- The cancellation ends the run. -/
def cancel (progress : Progress) (time : Nat) : Guarded :=
  ⟨.error (.internal "task cancelled"), progress.tokens, time, progress.started, progress.events⟩

/-- The deadline ends the run and cancels the task. -/
def expire (progress : Progress) (time : Nat) : Guarded :=
  ⟨.error (.internal "deadline exceeded"), progress.tokens.cancelOwn, time, progress.started,
    progress.events⟩

/-- What is known after the operation was polled. -/
def polled (progress : Progress) (poll : Poll) : Progress :=
  ⟨progress.tokens.join poll.cancels, true, progress.events ++ poll.events⟩

/-- The operation ends the run. -/
def finish (progress : Progress) (ending : Ending) (time : Nat) : Guarded :=
  ⟨ending.conclusion, progress.tokens, time, progress.started, progress.events⟩

/-- The guard looks before the operation is polled: a cancellation or the deadline ends the run. -/
def look (deadline : Nat) (progress : Progress) (now : Nat) (cancelled : Tokens) :
    Guarded ⊕ Progress :=
  let progress := { progress with tokens := progress.tokens.join cancelled }
  if progress.tokens.cancelled then .inl (progress.cancel now)
  else if deadline ≤ now then .inl (progress.expire now)
  else .inr progress

/-- The operation is polled, and may end the run. -/
def poll (progress : Progress) (now : Nat) (poll : Poll) : Guarded ⊕ Progress :=
  let progress := progress.polled poll
  match poll.ending with
  | some ending => .inl (progress.finish ending (now + poll.duration))
  | none => .inr progress

/-- One turn of a run: the run ends in it, or goes on from what is known then. -/
def turn (deadline : Nat) (progress : Progress) (turn : Turn) : Guarded ⊕ Progress :=
  match progress.look deadline turn.now turn.cancelled with
  | .inl guarded => .inl guarded
  | .inr progress => progress.poll turn.now turn.poll

end Progress

/-- Runs an operation in the given turns. When they are used up, nothing happens until the
deadline. -/
def run (deadline : Nat) (progress : Progress) : List Turn → Guarded
  | [] => if progress.tokens.cancelled then progress.cancel deadline else progress.expire deadline
  | turn :: turns =>
    match progress.turn deadline turn with
    | .inl guarded => guarded
    | .inr progress => run deadline progress turns

end Guarded

end CheckHarness
