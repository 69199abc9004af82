import CheckHarness.Checker.Operation
import CheckHarness.Execution
import CheckHarness.ServiceInfo

namespace CheckHarness

/-- A checker: what it says about itself, and an operation for each method. A task selects the one
operation that is run for it. -/
structure Checker where
  info : ServiceInfo
  operation : Method → Task → Operation

namespace Checker

/-- The operation that a task selects. -/
def operationFor (checker : Checker) (task : Task) : Operation :=
  checker.operation task.method task

/-- Executes a task. The caller's token may be cancelled before, or at a later time. -/
def execute (checker : Checker) (task : Task) (cancelledBefore : Bool) (cancellation : Option Nat) :
    Execution :=
  let turns := (checker.operationFor task).turns task.timeoutMs.toNat cancellation
  Execution.run task ⟨cancelledBefore, false⟩ turns

/-- Executes a task that nobody cancels. -/
def perform (checker : Checker) (task : Task) : Execution :=
  checker.execute task false none

/-- The checker that accepts every task without looking at the service. -/
def dummy : Checker where
  info := ⟨"DummyChecker", 1, 1, 1⟩
  operation _ _ := .succeed none

end Checker

end CheckHarness
