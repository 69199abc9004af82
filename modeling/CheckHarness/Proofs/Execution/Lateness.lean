import CheckHarness.Checker
import CheckHarness.Proofs.Execution.Report

namespace CheckHarness

/-- A poll that begins before the deadline ends before it. -/
def Turn.Punctual (deadline : Nat) (turn : Turn) : Prop :=
  turn.now < deadline → turn.now + turn.poll.duration < deadline

/-- A poll that takes no time does not go over the deadline. -/
theorem Turn.punctual_of_duration {deadline : Nat} {turn : Turn}
    (hduration : turn.poll.duration = 0) : turn.Punctual deadline := by
  intro hnow
  rwa [hduration, Nat.add_zero]

/-- The run takes until the end of the poll in which the operation ends. -/
theorem Guarded.EndsWith.time_eq {deadline : Nat} {tokens : Tokens} {turns before : List Turn}
    {turn : Turn} {ending : Ending} (hends : EndsWith deadline tokens turns before turn ending) :
    (run deadline (.initial tokens) turns).time = turn.now + turn.poll.duration := by
  obtain ⟨next, after, htokens, hrun⟩ := hends.toReaches.run_eq
  have hpolled := hends.polled
  rw [← htokens] at hpolled
  rw [hrun, run, turn_of_ending hpolled hends.ending]
  rfl

namespace Execution

variable {task : Task} {tokens : Tokens} {turns : List Turn}

/-- Where no poll goes over the deadline, a task that is late is reported as offline. -/
theorem report_of_late (hpunctual : ∀ turn ∈ turns, turn.Punctual task.timeoutMs.toNat)
    (hlate : task.timeoutMs.toNat ≤ (run task tokens turns).elapsed) :
    (run task tokens turns).report = ⟨.offline, none, none⟩ := by
  cases hcancelled : (tokensAtEnd task tokens turns).cancelled with
  | true => exact report_of_cancelled hcancelled
  | false =>
    obtain ⟨before, turn, ending, hends⟩ := Guarded.exists_endsWith hcancelled
    have hmem : turn ∈ turns := hends.turns.subset (by simp)
    have hintime := hpunctual turn hmem hends.polled.inTime
    have htime : (run task tokens turns).elapsed = turn.now + turn.poll.duration := hends.time_eq
    omega

/-- A turn at the beginning in which the operation ends after some time. -/
def longPoll (duration : Nat) (ending : Ending) : Turn :=
  ⟨0, .fresh, ⟨.fresh, duration, [], some ending⟩⟩

/-- A poll that begins in time ends the run, however long it takes. -/
theorem endsWith_longPoll {deadline : Nat} (hdeadline : 0 < deadline)
    (hfresh : tokens.cancelled = false) (duration : Nat) (ending : Ending) :
    Guarded.EndsWith deadline tokens [longPoll duration ending] [] (longPoll duration ending)
      ending where
  turns := List.prefix_refl _
  pending := trivial
  polled := by
    refine ⟨?_, hdeadline⟩
    rw [Tokens.cancelled_join, Bool.or_eq_false_iff]
    exact ⟨hfresh, rfl⟩
  ending := rfl

end Execution

namespace Operation

variable {deadline : Nat}

/-- No time passes while an operation does anything but wait. -/
theorem duration_of_mem_turnsFrom {operation : Operation} {now : Nat} {poll : Poll} {turn : Turn}
    (hpoll : poll.duration = 0) (hturn : turn ∈ turnsFrom deadline now poll operation) :
    turn.poll.duration = 0 := by
  -- The poll under way grows with the operation; it takes no time until the operation sleeps.
  induction operation generalizing now poll with
  | finish | crash =>
    obtain rfl := List.mem_singleton.mp hturn
    exact hpoll
  | consult next ih => exact ih _ hpoll hturn
  | sleep duration next ih =>
    rw [turnsFrom] at hturn
    split at hturn
    · exact ih hpoll hturn
    split at hturn
    · simp only [List.mem_cons, List.not_mem_nil, or_false] at hturn
      rcases hturn with rfl | rfl
      · exact hpoll
      · rfl
    · rcases List.mem_cons.mp hturn with rfl | hturn
      · exact hpoll
      · exact ih rfl hturn
  | awaitCancellation next ih =>
    rw [turnsFrom] at hturn
    split at hturn
    · exact ih hpoll hturn
    · obtain rfl := List.mem_singleton.mp hturn
      exact hpoll
  | log event next ih => exact @ih now { poll with events := poll.events ++ [event] } hpoll hturn
  | cancelTask next ih =>
    exact @ih now { poll with cancels := poll.cancels.join ⟨false, true⟩ } hpoll hturn
  | cancelCaller next ih =>
    exact @ih now { poll with cancels := poll.cancels.join ⟨true, false⟩ } hpoll hturn

theorem mem_insertTurn_iff {turn other : Turn} {turns : List Turn} :
    other ∈ insertTurn turn turns ↔ other = turn ∨ other ∈ turns := by
  induction turns with
  | nil => simp [insertTurn]
  | cons first turns ih =>
    rw [insertTurn]
    split
    · simp only [List.mem_cons, ih]
      exact or_left_comm
    · simp only [List.mem_cons]

/-- No poll of an operation that is polled alone takes any time. -/
theorem duration_of_mem_turns {operation : Operation} {cancellation : Option Nat} {turn : Turn}
    (hturn : turn ∈ operation.turns deadline cancellation) : turn.poll.duration = 0 := by
  have hdeadline : ∀ other ∈
      insertTurn (deadlineTurn deadline) (operation.turnsFrom deadline 0 .idle),
        other.poll.duration = 0 := by
    intro other hother
    rcases mem_insertTurn_iff.mp hother with rfl | hother
    · rfl
    · exact duration_of_mem_turnsFrom rfl hother
  cases cancellation with
  | none => exact hdeadline turn hturn
  | some time =>
    rcases mem_insertTurn_iff.mp hturn with rfl | hturn
    · rfl
    · exact hdeadline turn hturn

end Operation

namespace Execution

/-- Late operations in every schedule. A run that the operation ends takes until the end of the last
poll, which began before the deadline, and its report is made of the ending and the cancellation;
the time does not come into it. If no poll goes over the deadline, a run that takes until the
deadline or longer is reported as offline without a message. So it is with every operation that only
takes time while it waits. But any ending, however late it comes, is reported like one in time if it
comes in a poll that began in time and nobody has cancelled the task. -/
theorem lateness_decided (task : Task) (tokens : Tokens) (turns : List Turn) :
    (∀ before turn ending,
      Guarded.EndsWith task.timeoutMs.toNat tokens turns before turn ending →
        (run task tokens turns).elapsed = turn.now + turn.poll.duration ∧
        turn.now < task.timeoutMs.toNat ∧
        (run task tokens turns).report =
          Report.ofConclusion ending.conclusion (tokens.after (before ++ [turn])).cancelled) ∧
    ((∀ turn ∈ turns, turn.Punctual task.timeoutMs.toNat) →
      task.timeoutMs.toNat ≤ (run task tokens turns).elapsed →
        (run task tokens turns).report = ⟨.offline, none, none⟩) ∧
    (∀ checker : Checker, ∀ cancelledBefore cancellation,
      task.timeoutMs.toNat ≤ (checker.execute task cancelledBefore cancellation).elapsed →
        (checker.execute task cancelledBefore cancellation).report = ⟨.offline, none, none⟩) ∧
    (0 < task.timeoutMs.toNat → tokens.cancelled = false → ∀ late (ending : Ending), ∃ schedule,
      (run task tokens schedule).elapsed = task.timeoutMs.toNat + late ∧
        ending.Reported (run task tokens schedule).report) := by
  refine ⟨?_, report_of_late, ?_, ?_⟩
  · intro before turn ending hends
    obtain ⟨htokens, hconclusion⟩ := hends.run_eq
    refine ⟨hends.time_eq, hends.polled.inTime, ?_⟩
    simp only [run, ofGuarded, htokens, hconclusion]
  · intro checker cancelledBefore cancellation
    exact report_of_late fun turn hturn =>
      Turn.punctual_of_duration (Operation.duration_of_mem_turns hturn)
  · intro htimeout hfresh late ending
    have hends := endsWith_longPoll htimeout hfresh (task.timeoutMs.toNat + late) ending
    refine ⟨[longPoll (task.timeoutMs.toNat + late) ending], ?_, ?_⟩
    · exact hends.time_eq.trans (Nat.zero_add _)
    · refine reported_of_endsWith hends ?_
      rw [tokensAtEnd, hends.run_eq.1, Tokens.after_concat, Tokens.cancelled_join,
        hends.polled.uncancelled]
      rfl

/-- A task with a second to run is late in a turn after a second, and offline. -/
theorem lateness_decided_ready :
    (run secondTask .fresh (readyAt 1000 .fresh)).elapsed = 1000 ∧
      (run secondTask .fresh (readyAt 1000 .fresh)).report = ⟨.offline, none, none⟩ := by
  have helapsed : (run secondTask .fresh (readyAt 1000 .fresh)).elapsed = 1000 := rfl
  have hpunctual : ∀ turn ∈ readyAt 1000 .fresh, turn.Punctual secondTask.timeoutMs.toNat := by
    intro turn hturn
    apply Turn.punctual_of_duration
    simp only [readyAt, List.mem_cons, List.not_mem_nil, or_false] at hturn
    rcases hturn with rfl | rfl <;> rfl
  refine ⟨helapsed, ?_⟩
  exact (lateness_decided secondTask .fresh (readyAt 1000 .fresh)).2.1 hpunctual
    (Nat.le_of_eq helapsed.symm)

/-- A success that takes a poll of one and a half seconds. -/
def lateSuccess : Turn :=
  longPoll 1500 (.returned (.ok (.success (some "info"))))

/-- Half a second after the deadline, a success is reported as a success. -/
theorem report_lateSuccess :
    Guarded.EndsWith secondTask.timeoutMs.toNat .fresh [lateSuccess] [] lateSuccess
        (.returned (.ok (.success (some "info")))) ∧
      (run secondTask .fresh [lateSuccess]).elapsed = secondTask.timeoutMs.toNat + 500 ∧
      (run secondTask .fresh [lateSuccess]).report = ⟨.ok, none, some "info"⟩ :=
  ⟨endsWith_longPoll (by decide) rfl _ _, rfl, rfl⟩

end Execution

end CheckHarness
