import CheckHarness.Execution.Guard
import CheckHarness.Log.Event
import CheckHarness.Task.Basic

namespace CheckHarness

/-- The execution of a task. Whatever the checker does, one report comes out of it, decided by
cancellation first and by the conclusion second. The log tells how the task ended; only there a
fault that is not the service's appears in full. -/
structure Execution where
  report : Report
  /-- The tokens as the execution leaves them. -/
  tokens : Tokens
  /-- How long the execution took, in milliseconds. -/
  elapsed : Nat
  /-- Whether the operation of the checker was started. -/
  started : Bool
  events : List Log.Event
  deriving DecidableEq, Repr

namespace Execution

/-- The log entry of a finished task. -/
def event (conclusion : Conclusion) (cancelled : Bool) (report : Report) : Log.Event :=
  match report.verdict, conclusion with
  | .internalError, .error fault =>
    Log.error "Checker failed unexpectedly" [("error", fault.display)]
  | _, _ =>
    if cancelled then Log.info "Task cancelled or ran past its deadline" []
    else Log.info "Task finished" [("result", report.verdict.name)]

/-- The execution that a guarded run makes. In the end the task's own token is cancelled, which
stops whatever the operation left running. -/
def ofGuarded (run : Guarded) : Execution :=
  let cancelled := run.tokens.cancelled
  let report := Report.ofConclusion run.conclusion cancelled
  ⟨report, run.tokens.cancelOwn, run.time, run.started,
    run.events ++ [event run.conclusion cancelled report]⟩

/-- Executes a task whose operation is polled in the given turns. -/
def run (task : Task) (tokens : Tokens) (turns : List Turn) : Execution :=
  ofGuarded (Guarded.run task.timeoutMs.toNat (.initial tokens) turns)

/-- The details of the span that the log keeps for a task. -/
def span (task : Task) (report : Report) : List (String × String) :=
  [("task_id", toString task.id.toNat), ("method", task.method.name),
    ("team_id", toString task.team.id.toNat), ("task_chain_id", task.chain.render),
    ("current_round_id", toString task.currentRound.toNat),
    ("related_round_id", toString task.relatedRound.toNat),
    ("variant_id", toString task.variant.toNat), ("result", report.verdict.name)]

end Execution

end CheckHarness
