namespace CheckHarness

/-- How a computation can fail: with a fault that it tells about, or by a crash. A crash ends the
work on the spot; whoever asked for it gets no fault, and so no message either. -/
inductive Failure (ε : Type) where
  | fault (fault : ε)
  | crash
  deriving DecidableEq, Repr

namespace Failure

/-- Tells of the fault in other terms; a crash stays one. -/
def map (f : ε → δ) : Failure ε → Failure δ
  | .fault e => .fault (f e)
  | .crash => .crash

/-- What can only fail with a fault may stand where a crash is possible too. -/
instance : MonadLift (Except ε) (Except (Failure ε)) :=
  ⟨fun result => result.mapError .fault⟩

/-- Nothing is lost of a result when a crash becomes possible. -/
theorem mapError_fault_inj {first second : Except ε α} :
    first.mapError fault = second.mapError fault ↔ first = second := by
  constructor
  · intro hsame
    cases first <;> cases second <;> cases hsame <;> rfl
  · rintro rfl
    rfl

end Failure

end CheckHarness
