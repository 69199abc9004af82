import CheckHarness.Proofs.Execution.Report
import CheckHarness.Proofs.Workload.Containment

namespace CheckHarness.Workload

/-- An execution has come this far in turns of a guarded run, which began with the caller's token
cancelled or not. -/
def Stage.Follows (task : Task) : Stage → Prop
  | .waiting progress => ∃ cancelled turns, ∀ later,
    Guarded.run task.timeoutMs.toNat (.initial ⟨cancelled, false⟩) (turns ++ later) =
      Guarded.run task.timeoutMs.toNat progress later
  | .polled now progress => ∃ cancelled turns seen, ∀ poll later,
    Guarded.run task.timeoutMs.toNat (.initial ⟨cancelled, false⟩)
        (turns ++ ⟨now, seen, poll⟩ :: later) =
      (progress.poll now poll).elim id fun next =>
        Guarded.run task.timeoutMs.toNat next later
  | .ended execution => ∃ cancelled turns, execution = Execution.run task ⟨cancelled, false⟩ turns

section Follows

variable {task : Task} {now : Nat} {progress next : Guarded.Progress} {guarded : Guarded}
  {seen : Tokens}

theorem Stage.follows_initial (cancelled : Bool) :
    (Stage.waiting (.initial ⟨cancelled, false⟩)).Follows task :=
  ⟨cancelled, [], fun _ => rfl⟩

theorem Stage.Follows.stop (hfollows : (Stage.waiting progress).Follows task)
    (hlook : progress.look task.timeoutMs.toNat now seen = .inl guarded) :
    (Stage.ended (.ofGuarded guarded)).Follows task := by
  obtain ⟨cancelled, turns, hrun⟩ := hfollows
  refine ⟨cancelled, turns ++ [⟨now, seen, .idle⟩], ?_⟩
  rw [Execution.run, hrun, Guarded.run_cons, hlook]
  rfl

theorem Stage.Follows.pass (hfollows : (Stage.waiting progress).Follows task)
    (hlook : progress.look task.timeoutMs.toNat now seen = .inr next) :
    (Stage.polled now next).Follows task := by
  obtain ⟨cancelled, turns, hrun⟩ := hfollows
  refine ⟨cancelled, turns, seen, fun poll later => ?_⟩
  rw [hrun, Guarded.run_cons, hlook]
  rfl

theorem Stage.Follows.ready {poll : Poll} {ending : Ending}
    (hfollows : (Stage.polled now progress).Follows task) (hending : poll.ending = some ending) :
    (Stage.ended (.ofGuarded ((progress.polled poll).finish ending (now + poll.duration)))).Follows
      task := by
  obtain ⟨cancelled, turns, seen, hrun⟩ := hfollows
  refine ⟨cancelled, turns ++ [⟨now, seen, poll⟩], ?_⟩
  rw [Execution.run, hrun, Guarded.Progress.poll, hending]
  rfl

theorem Stage.Follows.pending {poll : Poll}
    (hfollows : (Stage.polled now progress).Follows task) (hending : poll.ending = none) :
    (Stage.waiting (progress.polled poll)).Follows task := by
  obtain ⟨cancelled, turns, seen, hrun⟩ := hfollows
  refine ⟨cancelled, turns ++ [⟨now, seen, poll⟩], fun later => ?_⟩
  rw [List.append_assoc, List.singleton_append, hrun, Guarded.Progress.poll, hending]
  rfl

end Follows

variable {workload next : Workload} {move : Move}

/-- No move lets a job leave its guard. -/
theorem follows_step (hfollows : ∀ job ∈ workload.jobs, job.stage.Follows job.task)
    (htransition : Transition workload move next) :
    ∀ job ∈ next.jobs, job.stage.Follows job.task := by
  have hstage : ∀ {index : Nat} {job : Job} {stage : Stage}, workload.jobs[index]? = some job →
      job.stage = stage → stage.Follows job.task := by
    rintro index job stage hjob rfl
    exact hfollows job (List.mem_of_getElem? hjob)
  cases htransition with
  | execute => exact forall_mem_concat hfollows (Stage.follows_initial _)
  | stop hjob hwaiting hlook =>
    exact forall_mem_set hfollows ((hstage hjob hwaiting).stop hlook)
  | pass hjob hwaiting hlook => exact forall_mem_set hfollows ((hstage hjob hwaiting).pass hlook)
  | ready hjob hpolled => exact forall_mem_set hfollows ((hstage hjob hpolled).ready rfl)
  | pending hjob hpolled => exact forall_mem_set hfollows ((hstage hjob hpolled).pending rfl)
  | _ => exact hfollows

/-- What is true of a workload in every run. -/
structure Sound (workload : Workload) : Prop where
  planted : workload.tree.Planted
  settled : Settled workload
  follows : ∀ job ∈ workload.jobs, job.stage.Follows job.task

theorem Sound.step (hsound : Sound workload) (htransition : Transition workload move next) :
    Sound next :=
  ⟨hsound.planted.grows htransition.grows, hsound.settled.step hsound.planted htransition,
    follows_step hsound.follows htransition⟩

theorem sound_start : Sound start where
  planted := ⟨by simp [start, tree], by simp [Below, start, tree], by simp [Below, start, tree]⟩
  settled := ⟨by simp [start], by simp [start]⟩
  follows := by simp [start]

theorem Sound.of_run {moves : List Move} (hrun : start.run moves = some workload) :
    Sound workload :=
  run_preserves Sound.step hrun sound_start

section Causes

variable {index : Nat} {job : Job} {token : CancellationToken}

end Causes

end CheckHarness.Workload
