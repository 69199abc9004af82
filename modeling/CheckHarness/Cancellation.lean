namespace CheckHarness

/-- A token, known by the way to it. Every token but those at the root is made below another one.
Cancelling a token cancels it and everything that is or will be made below it, and nothing else, and
cannot be undone. -/
inductive CancellationToken where
  | root (number : Nat)
  | child (parent : CancellationToken) (number : Nat)
  deriving DecidableEq, Repr

namespace CancellationToken

/-- Whether a token is cancelled once the given tokens were cancelled. -/
def isCancelled (cancelled : List CancellationToken) : CancellationToken → Bool
  | .root number => cancelled.contains (.root number)
  | .child parent number =>
    cancelled.contains (.child parent number) || parent.isCancelled cancelled

end CancellationToken

end CheckHarness
