import CheckHarness.Execution
import CheckHarness.Proofs.Execution.Guard

namespace CheckHarness

/-- What the scheduler is told about an operation that ended in time. -/
inductive Ending.Reported : Ending → Report → Prop where
  | success (attackInfo : Option String) :
    Reported (.returned (.ok (.success attackInfo))) ⟨.ok, none, attackInfo⟩
  | mumble (message : String) :
    Reported (.returned (.ok (.mumble message))) ⟨.mumble, some message, none⟩
  | mumbleFault (message : String) :
    Reported (.returned (.error (.mumble message))) ⟨.mumble, some message, none⟩
  | offline (message : String) :
    Reported (.returned (.ok (.offline message))) ⟨.offline, some message, none⟩
  | offlineFault (message : String) :
    Reported (.returned (.error (.offline message))) ⟨.offline, some message, none⟩
  | otherFault {fault : Fault} (hsignal : fault.isSignal = false) :
    Reported (.returned (.error fault)) ⟨.internalError, none, none⟩
  | crash (payload : CrashPayload) : Reported (.crashed payload) ⟨.internalError, none, none⟩

/-- Every ending is reported. -/
theorem Ending.reported_ofConclusion (ending : Ending) :
    ending.Reported (Report.ofConclusion ending.conclusion false) := by
  cases ending with
  | returned conclusion =>
    cases conclusion with
    | ok outcome =>
      cases outcome with
      | success attackInfo => exact .success attackInfo
      | mumble message => exact .mumble message
      | offline message => exact .offline message
    | error fault =>
      cases fault with
      | mumble message => exact .mumbleFault message
      | offline message => exact .offlineFault message
      | _ => exact .otherFault rfl
  | crashed payload => exact .crash payload

/-- A report has a message only if the service is at fault, and attack information only if it is
not. -/
structure Report.Discreet (report : Report) : Prop where
  message : report.message ≠ none → report.verdict = .mumble ∨ report.verdict = .offline
  attackInfo : report.attackInfo ≠ none → report.verdict = .ok

/-- What is reported of an ending shows a message of faulty services and information on success
only. -/
theorem Ending.Reported.discreet {ending : Ending} {report : Report}
    (hreported : ending.Reported report) : report.Discreet := by
  cases hreported <;> exact ⟨by simp, by simp⟩

namespace Execution

/-- The tokens with which the guarded run of a task ends. -/
def tokensAtEnd (task : Task) (tokens : Tokens) (turns : List Turn) : Tokens :=
  (Guarded.run task.timeoutMs.toNat (.initial tokens) turns).tokens

variable {task : Task} {tokens : Tokens} {turns : List Turn}

/-- A task that was cancelled or ran out of time is offline without a message. -/
theorem report_of_cancelled (hcancelled : (tokensAtEnd task tokens turns).cancelled = true) :
    (run task tokens turns).report = ⟨.offline, none, none⟩ := by
  unfold tokensAtEnd at hcancelled
  simp only [run, ofGuarded, hcancelled, Report.ofConclusion, if_true]
  rfl

/-- The report of a task that was not cancelled is that of its conclusion. -/
theorem report_of_endsWith {before : List Turn} {turn : Turn} {ending : Ending}
    (hends : Guarded.EndsWith task.timeoutMs.toNat tokens turns before turn ending)
    (huncancelled : (tokensAtEnd task tokens turns).cancelled = false) :
    (run task tokens turns).report = Report.ofConclusion ending.conclusion false := by
  unfold tokensAtEnd at huncancelled
  obtain ⟨_, hconclusion⟩ := hends.run_eq
  simp only [run, ofGuarded, huncancelled, hconclusion]

/-- The ending of a task that was not cancelled is reported. -/
theorem reported_of_endsWith {before : List Turn} {turn : Turn} {ending : Ending}
    (hends : Guarded.EndsWith task.timeoutMs.toNat tokens turns before turn ending)
    (huncancelled : (tokensAtEnd task tokens turns).cancelled = false) :
    ending.Reported (run task tokens turns).report := by
  rw [report_of_endsWith hends huncancelled]
  exact ending.reported_ofConclusion

/-- The report of a task in every schedule. If the task is cancelled when the guarded run ends, the
report is offline and nothing else. This is so whenever the run comes to a turn in which the task is
cancelled or out of time, whatever the poll of this turn would have come to, and whenever the
operation does not end at all. Otherwise the operation has ended the run, and the report is the one
of its ending. The run ends with the tokens that were cancelled by then, the last poll included. -/
theorem report_decided (task : Task) (tokens : Tokens) (turns : List Turn) :
    ((tokensAtEnd task tokens turns).cancelled = true →
      (run task tokens turns).report = ⟨.offline, none, none⟩) ∧
    (∀ before turn, Guarded.Reaches task.timeoutMs.toNat tokens turns before turn →
      ((tokens.after before).join turn.cancelled).cancelled = true ∨
          task.timeoutMs.toNat ≤ turn.now →
        (tokensAtEnd task tokens turns).cancelled = true) ∧
    (Guarded.Pending task.timeoutMs.toNat tokens turns →
      (tokensAtEnd task tokens turns).cancelled = true) ∧
    ((tokensAtEnd task tokens turns).cancelled = false → ∃ before turn ending,
      Guarded.EndsWith task.timeoutMs.toNat tokens turns before turn ending) ∧
    (∀ before turn ending,
      Guarded.EndsWith task.timeoutMs.toNat tokens turns before turn ending →
        tokensAtEnd task tokens turns = tokens.after (before ++ [turn]) ∧
        ((tokensAtEnd task tokens turns).cancelled = false →
          ending.Reported (run task tokens turns).report)) ∧
    (run task tokens turns).report.Discreet := by
  refine ⟨report_of_cancelled, ?_, Guarded.Pending.cancelled_run, Guarded.exists_endsWith, ?_, ?_⟩
  · intro before turn hreaches hlate
    exact hreaches.cancelled_run (fun hpolled => Guarded.not_polled_iff.mpr hlate hpolled)
  · intro before turn ending hends
    exact ⟨hends.run_eq.1, reported_of_endsWith hends⟩
  · cases hcancelled : (tokensAtEnd task tokens turns).cancelled with
    | true =>
      rw [report_of_cancelled hcancelled]
      exact ⟨by simp, by simp⟩
    | false =>
      obtain ⟨before, turn, ending, hends⟩ := Guarded.exists_endsWith hcancelled
      exact (reported_of_endsWith hends hcancelled).discreet

/-- A task with one second to run. -/
def secondTask : Task :=
  ⟨1, .putFlag, "service", ⟨1, "team"⟩, 1, 1, some "flag", 0, 1000, 60000, ⟨.flag, 1, 1, 1, 0⟩⟩

/-- A task without a flag, and with one second to run. -/
def havocTask : Task :=
  ⟨1, .havoc, "service", ⟨1, "team"⟩, 1, 1, none, 0, 1000, 60000, ⟨.havoc, 1, 1, 1, 0⟩⟩

/-- An operation that is ready in its second turn. -/
def readyAt (now : Nat) (cancelled : Tokens) : List Turn :=
  [⟨0, .fresh, .idle⟩,
    ⟨now, cancelled, { Poll.idle with ending := some (.returned (.ok (.success (some "info")))) }⟩]

/-- A success that is ready in time is reported, but not one that is ready in the turn in which the
caller cancels or the deadline passes. -/
theorem report_decided_ready :
    (run secondTask .fresh (readyAt 999 .fresh)).report = ⟨.ok, none, some "info"⟩ ∧
    (run secondTask .fresh (readyAt 999 ⟨true, false⟩)).report = ⟨.offline, none, none⟩ ∧
    (run secondTask .fresh (readyAt 1000 .fresh)).report = ⟨.offline, none, none⟩ := by
  have hpending : Guarded.Pending 1000 .fresh [⟨0, .fresh, .idle⟩] :=
    ⟨⟨rfl, by decide⟩, rfl, trivial⟩
  refine ⟨?_, ?_, ?_⟩
  · have hdecided := report_decided secondTask .fresh (readyAt 999 .fresh)
    obtain ⟨-, hreported⟩ := hdecided.2.2.2.2.1 _ _ _
      ⟨⟨List.prefix_refl _, hpending⟩, ⟨rfl, by decide⟩, rfl⟩
    have hsuccess := hreported rfl
    generalize (run secondTask .fresh (readyAt 999 .fresh)).report = report at hsuccess ⊢
    cases hsuccess
    rfl
  · have hdecided := report_decided secondTask .fresh (readyAt 999 ⟨true, false⟩)
    exact hdecided.1 (hdecided.2.1 _ _ ⟨List.prefix_refl _, hpending⟩ (.inl rfl))
  · have hdecided := report_decided secondTask .fresh (readyAt 1000 .fresh)
    exact hdecided.1 (hdecided.2.1 _ _ ⟨List.prefix_refl _, hpending⟩ (.inr (by decide)))

end Execution

end CheckHarness
