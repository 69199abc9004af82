import CheckHarness.Execution.Guard

namespace CheckHarness

namespace Tokens

/-- The tokens after turns in all of which the operation was polled. -/
def after (tokens : Tokens) : List Turn → Tokens
  | [] => tokens
  | turn :: turns => ((tokens.join turn.cancelled).join turn.poll.cancels).after turns

@[simp]
theorem cancelled_cancelOwn (tokens : Tokens) : tokens.cancelOwn.cancelled = true := by
  simp [cancelled, cancelOwn]

/-- Tokens that are seen twice are cancelled if they were at one of the times. -/
theorem cancelled_join (tokens others : Tokens) :
    (tokens.join others).cancelled = (tokens.cancelled || others.cancelled) := by
  simp [join, cancelled, Bool.or_left_comm, Bool.or_assoc]

/-- The tokens after one more turn. -/
theorem after_concat (tokens : Tokens) (before : List Turn) (turn : Turn) :
    tokens.after (before ++ [turn]) =
      ((tokens.after before).join turn.cancelled).join turn.poll.cancels := by
  induction before generalizing tokens with
  | nil => rfl
  | cons other before ih => exact ih _

end Tokens

namespace Guarded

/-- The operation is polled in this turn: the task is neither cancelled nor out of time. -/
structure Polled (deadline : Nat) (tokens : Tokens) (turn : Turn) : Prop where
  uncancelled : (tokens.join turn.cancelled).cancelled = false
  inTime : turn.now < deadline

/-- An operation is not polled just if its task is cancelled or out of time. -/
theorem not_polled_iff {deadline : Nat} {tokens : Tokens} {turn : Turn} :
    ¬ Polled deadline tokens turn ↔
      (tokens.join turn.cancelled).cancelled = true ∨ deadline ≤ turn.now := by
  constructor
  · intro hpolled
    by_cases hcancelled : (tokens.join turn.cancelled).cancelled = true
    · exact .inl hcancelled
    · refine .inr (Nat.le_of_not_lt fun hnow => hpolled ⟨?_, hnow⟩)
      simpa using hcancelled
  · rintro (hcancelled | hnow) ⟨huncancelled, hinTime⟩
    · simp [huncancelled] at hcancelled
    · omega

/-- The operation is polled in each of these turns and ends in none. -/
def Pending (deadline : Nat) (tokens : Tokens) : List Turn → Prop
  | [] => True
  | turn :: turns =>
    Polled deadline tokens turn ∧ turn.poll.ending = none ∧
      Pending deadline ((tokens.join turn.cancelled).join turn.poll.cancels) turns

/-- A run comes to this turn after the turns before it. -/
structure Reaches (deadline : Nat) (tokens : Tokens) (turns before : List Turn) (turn : Turn) :
    Prop where
  turns : before ++ [turn] <+: turns
  pending : Pending deadline tokens before

/-- A run comes to this turn after the turns before it and ends there, because the operation does.
-/
structure EndsWith (deadline : Nat) (tokens : Tokens) (turns before : List Turn) (turn : Turn)
    (ending : Ending) : Prop extends Reaches deadline tokens turns before turn where
  polled : Polled deadline (tokens.after before) turn
  ending : turn.poll.ending = some ending

section Turns

variable {deadline : Nat} {progress : Progress} {turn : Turn} {turns : List Turn}

/-- The guard lets an operation be polled only if the task is not cancelled. -/
theorem cancelled_eq_false_of_look {now : Nat} {cancelled : Tokens} {next : Progress}
    (hlook : progress.look deadline now cancelled = .inr next) :
    next.tokens.cancelled = false := by
  unfold Progress.look at hlook
  dsimp only at hlook
  split at hlook
  · cases hlook
  · rename_i hcancelled
    split at hlook
    · cases hlook
    · cases hlook
      simpa using hcancelled

/-- In a turn in which the task is cancelled the guard ends the run. -/
theorem turn_of_cancelled (hcancelled : (progress.tokens.join turn.cancelled).cancelled = true) :
    progress.turn deadline turn =
      .inl (Progress.cancel { progress with tokens := progress.tokens.join turn.cancelled }
        turn.now) := by
  simp only [Progress.turn, Progress.look, hcancelled, if_true]

/-- In a turn in which the time is over the guard ends the run. -/
theorem turn_of_expired (huncancelled : (progress.tokens.join turn.cancelled).cancelled = false)
    (hnow : deadline ≤ turn.now) :
    progress.turn deadline turn =
      .inl (Progress.expire { progress with tokens := progress.tokens.join turn.cancelled }
        turn.now) := by
  simp only [Progress.turn, Progress.look, huncancelled, Bool.false_eq_true, if_false, hnow, if_true]

/-- A turn in which the operation is not polled ends the run, whatever a poll would come to. -/
theorem turn_of_not_polled (hpolled : ¬ Polled deadline progress.tokens turn) :
    ∃ guarded : Guarded, guarded.started = progress.started ∧
      guarded.tokens.cancelled = true ∧
      ∀ poll, progress.turn deadline { turn with poll } = .inl guarded := by
  cases hcancelled : (progress.tokens.join turn.cancelled).cancelled with
  | true =>
    exact ⟨Progress.cancel { progress with tokens := progress.tokens.join turn.cancelled } turn.now,
      rfl, hcancelled, fun poll => @turn_of_cancelled deadline progress { turn with poll } hcancelled⟩
  | false =>
    have hnow := (not_polled_iff.mp hpolled).resolve_left (by simp [hcancelled])
    exact ⟨Progress.expire { progress with tokens := progress.tokens.join turn.cancelled } turn.now,
      rfl, Tokens.cancelled_cancelOwn _,
      fun poll => @turn_of_expired deadline progress { turn with poll } hcancelled hnow⟩

/-- An operation that is polled and ends, ends the run. -/
theorem turn_of_ending {ending : Ending} (hpolled : Polled deadline progress.tokens turn)
    (hending : turn.poll.ending = some ending) :
    progress.turn deadline turn =
      .inl (Progress.finish
        (Progress.polled { progress with tokens := progress.tokens.join turn.cancelled } turn.poll)
        ending (turn.now + turn.poll.duration)) := by
  simp only [Progress.turn, Progress.look, hpolled.uncancelled, Bool.false_eq_true, if_false,
    Nat.not_le_of_lt hpolled.inTime, Progress.poll, hending]

/-- An operation that is polled and does not end, goes on. -/
theorem turn_of_pending (hpolled : Polled deadline progress.tokens turn)
    (hending : turn.poll.ending = none) :
    progress.turn deadline turn =
      .inr (Progress.polled { progress with tokens := progress.tokens.join turn.cancelled }
        turn.poll) := by
  simp only [Progress.turn, Progress.look, hpolled.uncancelled, Bool.false_eq_true, if_false,
    Nat.not_le_of_lt hpolled.inTime, Progress.poll, hending]

/-- A run goes on turn by turn: the guard looks, and then the operation is polled. -/
theorem run_cons : run deadline progress (turn :: turns) =
    (progress.look deadline turn.now turn.cancelled).elim id fun next =>
      (next.poll turn.now turn.poll).elim id fun after => run deadline after turns := by
  rw [run, Progress.turn]
  cases progress.look deadline turn.now turn.cancelled with
  | inl guarded => rfl
  | inr next =>
    simp only [Sum.elim_inr]
    cases next.poll turn.now turn.poll <;> rfl

/-- A run without further turns comes to its deadline. -/
theorem cancelled_run_nil : (run deadline progress []).tokens.cancelled = true := by
  unfold run
  split
  · rename_i hcancelled
    exact hcancelled
  · exact Tokens.cancelled_cancelOwn _

/-- Cancellation and the deadline end a run before the operation is polled. -/
theorem cancelled_run_of_not_polled (hpolled : ¬ Polled deadline progress.tokens turn) :
    (run deadline progress (turn :: turns)).tokens.cancelled = true := by
  obtain ⟨guarded, -, hcancelled, hturn⟩ := turn_of_not_polled hpolled
  rw [run, hturn turn.poll]
  exact hcancelled

/-- The run ends in the turn in which the operation does. -/
theorem run_of_ending {ending : Ending} (hpolled : Polled deadline progress.tokens turn)
    (hending : turn.poll.ending = some ending) :
    (run deadline progress (turn :: turns)).tokens =
        (progress.tokens.join turn.cancelled).join turn.poll.cancels ∧
      (run deadline progress (turn :: turns)).conclusion = ending.conclusion := by
  rw [run, turn_of_ending hpolled hending]
  exact ⟨rfl, rfl⟩

/-- A run in which the operation has not ended goes on. -/
theorem run_of_pending (hpolled : Polled deadline progress.tokens turn)
    (hending : turn.poll.ending = none) :
    ∃ next, next.tokens = (progress.tokens.join turn.cancelled).join turn.poll.cancels ∧
      run deadline progress (turn :: turns) = run deadline next turns := by
  rw [run, turn_of_pending hpolled hending]
  exact ⟨_, rfl, rfl⟩

/-- Turns in which the operation does not end lead on to the next ones. -/
theorem run_append_of_pending {before : List Turn}
    (hpending : Pending deadline progress.tokens before) :
    ∃ next, next.tokens = progress.tokens.after before ∧
      run deadline progress (before ++ turns) = run deadline next turns := by
  induction before generalizing progress with
  | nil => exact ⟨progress, rfl, rfl⟩
  | cons turn before ih =>
    obtain ⟨hpolled, hending, hrest⟩ := hpending
    obtain ⟨next, htokens, hrun⟩ :=
      @run_of_pending deadline progress turn (before ++ turns) hpolled hending
    rw [← htokens] at hrest
    obtain ⟨last, hlast, hruns⟩ := ih hrest
    exact ⟨last, by rw [hlast, htokens, Tokens.after], hrun.trans hruns⟩

end Turns

variable {deadline : Nat} {tokens : Tokens} {turns before : List Turn} {turn : Turn}

/-- A run that reaches a turn is decided from there on. -/
theorem Reaches.run_eq (hreaches : Reaches deadline tokens turns before turn) :
    ∃ next after, next.tokens = tokens.after before ∧
      run deadline (.initial tokens) turns = run deadline next (turn :: after) := by
  obtain ⟨after, rfl⟩ := hreaches.turns
  obtain ⟨next, htokens, hrun⟩ :=
    @run_append_of_pending deadline (.initial tokens) (turn :: after) before hreaches.pending
  refine ⟨next, after, htokens, ?_⟩
  rwa [List.append_assoc, List.singleton_append]

/-- The task of a run that comes to a turn in which it is cancelled or out of time is cancelled in
the end, whatever the operation would have come to in this turn. -/
theorem Reaches.cancelled_run (hreaches : Reaches deadline tokens turns before turn)
    (hpolled : ¬ Polled deadline (tokens.after before) turn) :
    (run deadline (.initial tokens) turns).tokens.cancelled = true := by
  obtain ⟨next, after, htokens, hrun⟩ := hreaches.run_eq
  rw [← htokens] at hpolled
  rw [hrun]
  exact cancelled_run_of_not_polled hpolled

/-- The tokens and the conclusion of a run in which the operation ends. -/
theorem EndsWith.run_eq {ending : Ending} (hends : EndsWith deadline tokens turns before turn ending) :
    (run deadline (.initial tokens) turns).tokens = tokens.after (before ++ [turn]) ∧
      (run deadline (.initial tokens) turns).conclusion = ending.conclusion := by
  obtain ⟨next, after, htokens, hrun⟩ := hends.toReaches.run_eq
  have hpolled := hends.polled
  rw [← htokens] at hpolled
  rw [hrun, Tokens.after_concat, ← htokens]
  exact run_of_ending hpolled hends.ending

/-- If the task of a run is not cancelled in the end, the operation has ended the run. -/
theorem exists_endsWith {progress : Progress}
    (huncancelled : (run deadline progress turns).tokens.cancelled = false) :
    ∃ before turn ending, EndsWith deadline progress.tokens turns before turn ending := by
  induction turns generalizing progress with
  | nil => simp [cancelled_run_nil] at huncancelled
  | cons turn turns ih =>
    by_cases hpolled : Polled deadline progress.tokens turn
    · cases hending : turn.poll.ending with
      | some ending =>
        exact ⟨[], turn, ending, ⟨⟨turns, rfl⟩, trivial⟩, hpolled, hending⟩
      | none =>
        obtain ⟨next, htokens, hrun⟩ := @run_of_pending deadline progress turn turns hpolled hending
        rw [hrun] at huncancelled
        obtain ⟨before, last, ending, ⟨⟨after, rfl⟩, hpending⟩, hlast, hends⟩ := ih huncancelled
        rw [htokens] at hpending hlast
        exact ⟨turn :: before, last, ending, ⟨⟨after, rfl⟩, hpolled, hending, hpending⟩, hlast, hends⟩
    · simp [cancelled_run_of_not_polled hpolled] at huncancelled

/-- The task of a run in which the operation does not end is cancelled in the end, at the deadline
if not before. -/
theorem Pending.cancelled_run (hpending : Pending deadline tokens turns) :
    (run deadline (.initial tokens) turns).tokens.cancelled = true := by
  obtain ⟨next, htokens, hrun⟩ :=
    @run_append_of_pending deadline (.initial tokens) [] turns hpending
  rw [List.append_nil] at hrun
  rw [hrun]
  exact cancelled_run_nil

end Guarded

end CheckHarness
