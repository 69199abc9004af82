import CheckHarness.Checker
import CheckHarness.Proofs.Execution.Report

namespace CheckHarness

namespace Fault

/-- The faults that the errors of libraries are converted to. -/
inductive Converted : Fault → Prop where
  | io (detail : String) : Converted (.io detail)
  | json (detail : String) : Converted (.json detail)
  | http (detail : String) : Converted (.http detail)
  | document (detail : String) : Converted (ofDocument detail)
  | address (detail : String) : Converted (ofAddress detail)
  | numeral (fault : NumeralFault) : Converted (ofNumeral fault)
  | job (crashed : Bool) : Converted (ofJob crashed)

/-- A converted fault is not about the service. -/
theorem Converted.isSignal {fault : Fault} (hconverted : Converted fault) :
    fault.isSignal = false := by
  cases hconverted <;> rfl

/-- The texts that a fault is made of. -/
def texts : Fault → List String
  | .offline text | .mumble text | .network text | .http text | .json text | .io text
  | .internal text => [text]
  | .configuration component message => [component, message]
  | .validation field message => [field, message]
  | .checkerNotFound name available => [name, available]

/-- The log entry of a fault shows all of its texts. -/
theorem infix_display {fault : Fault} {text : String} (htext : text ∈ fault.texts) :
    text.toList <:+: fault.display.toList := by
  unfold display
  cases fault with
  | configuration first second | validation first second =>
    simp only [String.toList_append]
    obtain rfl | rfl : text = first ∨ text = second := by simpa [texts] using htext
    · rw [List.append_assoc]
      exact List.infix_append _ _ _
    · exact (List.suffix_append _ _).isInfix
  | checkerNotFound name available =>
    simp only [String.toList_append]
    obtain rfl | rfl : text = name ∨ text = available := by simpa [texts] using htext
    · rw [List.append_assoc, List.append_assoc]
      exact List.infix_append _ _ _
    · exact List.infix_append _ _ _
  | offline other | mumble other | network other | http other | json other | io other
  | internal other =>
    obtain rfl : text = other := List.mem_singleton.mp htext
    simp only [String.toList_append]
    exact (List.suffix_append _ _).isInfix

end Fault

namespace Ending

/-- Whether an operation ended because of a defect of the checker. -/
def isDefect : Ending → Bool
  | .returned (.ok _) => false
  | .returned (.error fault) => !fault.isSignal
  | .crashed _ => true

/-- What a defect is known by: the texts of the fault, or the message of the crash. -/
def texts : Ending → List String
  | .returned (.ok _) => []
  | .returned (.error fault) => fault.texts
  | .crashed payload => [payload.message]

/-- The ending without anything about a defect. -/
def redacted (ending : Ending) : Ending :=
  if ending.isDefect then .crashed .other else ending

/-- A defect concludes with a fault that is not about the service and tells all of it. -/
theorem exists_fault_of_isDefect {ending : Ending} (hdefect : ending.isDefect = true) :
    ∃ fault, ending.conclusion = .error fault ∧ fault.isSignal = false ∧
      ∀ text ∈ ending.texts, text.toList <:+: fault.display.toList := by
  cases ending with
  | returned conclusion =>
    cases conclusion with
    | ok => cases hdefect
    | error fault =>
      have hsignal : fault.isSignal = false := by simpa [isDefect] using hdefect
      exact ⟨fault, rfl, hsignal, fun _ => Fault.infix_display⟩
  | crashed payload =>
    refine ⟨_, rfl, rfl, fun text htext => ?_⟩
    obtain rfl : text = payload.message := List.mem_singleton.mp htext
    unfold Fault.display
    simp only [String.toList_append]
    exact ((List.suffix_append _ _).trans (List.suffix_append _ _)).isInfix

end Ending

/-- Of a fault that is not about the service the report shows nothing. -/
theorem Report.ofConclusion_of_not_signal {fault : Fault} (hsignal : fault.isSignal = false) :
    ofConclusion (.error fault) false = internalError := by
  cases fault with
  | offline | mumble => cases hsignal
  | _ => rfl

/-- An ending from which the defect is struck out has the same report. -/
theorem Report.ofConclusion_redacted (ending : Ending) (cancelled : Bool) :
    ofConclusion ending.redacted.conclusion cancelled = ofConclusion ending.conclusion cancelled := by
  rw [Ending.redacted]
  split
  · rename_i hdefect
    obtain ⟨fault, hconclusion, hsignal, -⟩ := Ending.exists_fault_of_isDefect hdefect
    cases cancelled with
    | true => rfl
    | false =>
      rw [hconclusion, ofConclusion_of_not_signal hsignal]
      rfl
  · rfl

/-- The poll without anything about a defect. -/
def Poll.redacted (poll : Poll) : Poll :=
  { poll with ending := poll.ending.map Ending.redacted }

/-- The turn without anything about a defect. -/
def Turn.redacted (turn : Turn) : Turn :=
  { turn with poll := turn.poll.redacted }

/-- A guarded run does the same without the defects, up to a conclusion that is reported alike. -/
theorem Guarded.exists_run_redacted (deadline : Nat) (progress : Progress) (turns : List Turn) :
    ∃ conclusion, run deadline progress (turns.map Turn.redacted) =
        { run deadline progress turns with conclusion } ∧
      ∀ cancelled, Report.ofConclusion conclusion cancelled =
        Report.ofConclusion (run deadline progress turns).conclusion cancelled := by
  induction turns generalizing progress with
  | nil => exact ⟨_, rfl, fun _ => rfl⟩
  | cons turn turns ih =>
    rw [List.map_cons, run, run]
    by_cases hpolled : Polled deadline progress.tokens turn
    · have hredacted : Polled deadline progress.tokens turn.redacted :=
        ⟨hpolled.uncancelled, hpolled.inTime⟩
      cases hending : turn.poll.ending with
      | some ending =>
        have hother : turn.redacted.poll.ending = some ending.redacted :=
          congrArg (Option.map Ending.redacted) hending
        rw [turn_of_ending hpolled hending, turn_of_ending hredacted hother]
        exact ⟨_, rfl, Report.ofConclusion_redacted ending⟩
      | none =>
        have hother : turn.redacted.poll.ending = none :=
          congrArg (Option.map Ending.redacted) hending
        rw [turn_of_pending hpolled hending, turn_of_pending hredacted hother]
        exact ih _
    · -- The guard ends the run before the ending is known.
      obtain ⟨guarded, -, -, hturn⟩ := turn_of_not_polled hpolled
      rw [hturn turn.poll, Turn.redacted, hturn]
      exact ⟨_, rfl, fun _ => rfl⟩

namespace Execution

variable {task : Task} {tokens : Tokens} {turns others : List Turn}

/-- A run from which the defects are struck out has the same report. -/
theorem report_redacted :
    (run task tokens (turns.map Turn.redacted)).report = (run task tokens turns).report := by
  obtain ⟨conclusion, hrun, hreport⟩ :=
    Guarded.exists_run_redacted task.timeoutMs.toNat (.initial tokens) turns
  rw [run, run, hrun]
  exact hreport _

/-- Runs that differ in nothing but their defects have the same report. -/
theorem report_eq_of_redacted (hturns : turns.map Turn.redacted = others.map Turn.redacted) :
    (run task tokens turns).report = (run task tokens others).report := by
  rw [← report_redacted, hturns, report_redacted]

/-- The last log entry of a task that is not cancelled tells of the defect by which it ended. -/
theorem getLast?_events_of_isDefect {before : List Turn} {turn : Turn} {ending : Ending}
    (hends : Guarded.EndsWith task.timeoutMs.toNat tokens turns before turn ending)
    (huncancelled : (tokensAtEnd task tokens turns).cancelled = false)
    (hdefect : ending.isDefect = true) :
    ∃ shown, (run task tokens turns).events.getLast? =
        some (Log.error "Checker failed unexpectedly" [("error", shown)]) ∧
      ∀ text ∈ ending.texts, text.toList <:+: shown.toList := by
  obtain ⟨fault, hfault, hsignal, htexts⟩ := Ending.exists_fault_of_isDefect hdefect
  have hconclusion := hends.run_eq.2.trans hfault
  unfold tokensAtEnd at huncancelled
  refine ⟨fault.display, ?_, htexts⟩
  rw [run, ofGuarded, huncancelled, hconclusion, Report.ofConclusion_of_not_signal hsignal,
    List.getLast?_concat]
  rfl

end Execution

namespace Operation

/-- The operation that ends at once. -/
def ofEnding : Ending → Operation
  | .returned conclusion => .finish conclusion
  | .crashed payload => .crash payload

/-- The operation without anything about a defect. -/
def redacted : Operation → Operation
  | .finish conclusion => ofEnding (Ending.returned conclusion).redacted
  | .crash payload => ofEnding (Ending.crashed payload).redacted
  | .consult next => .consult fun left => (next left).redacted
  | .sleep duration next => .sleep duration next.redacted
  | .awaitCancellation next => .awaitCancellation next.redacted
  | .log event next => .log event next.redacted
  | .cancelTask next => .cancelTask next.redacted
  | .cancelCaller next => .cancelCaller next.redacted

variable {deadline now : Nat}

theorem turnsFrom_ofEnding (poll : Poll) (ending : Ending) :
    turnsFrom deadline now poll (ofEnding ending) =
      [⟨now, .fresh, { poll with ending := some ending }⟩] := by
  cases ending <;> rfl

/-- The turns of a redacted operation are its redacted turns. -/
theorem turnsFrom_redacted (operation : Operation) (poll : Poll) :
    turnsFrom deadline now poll.redacted operation.redacted =
      (turnsFrom deadline now poll operation).map Turn.redacted := by
  induction operation generalizing now poll with
  | finish | crash => exact turnsFrom_ofEnding _ _
  | consult next ih => exact ih _ poll
  | sleep duration next ih =>
    rw [redacted, turnsFrom, turnsFrom]
    by_cases hzero : duration = 0
    · simp only [if_pos hzero]
      exact ih poll
    have hcancels : poll.redacted.cancels = poll.cancels := rfl
    simp only [if_neg hzero, hcancels]
    split
    · rfl
    · exact congrArg (List.cons _) (ih .idle)
  | awaitCancellation next ih =>
    have hcancels : poll.redacted.cancels = poll.cancels := rfl
    rw [redacted, turnsFrom, turnsFrom, hcancels]
    split
    · exact ih poll
    · rfl
  | log event next ih => exact ih { poll with events := poll.events ++ [event] }
  | cancelTask next ih => exact ih { poll with cancels := poll.cancels.join ⟨false, true⟩ }
  | cancelCaller next ih => exact ih { poll with cancels := poll.cancels.join ⟨true, false⟩ }

theorem insertTurn_redacted (turn : Turn) (turns : List Turn) :
    insertTurn turn.redacted (turns.map Turn.redacted) =
      (insertTurn turn turns).map Turn.redacted := by
  induction turns with
  | nil => rfl
  | cons other turns ih =>
    have hnow : other.redacted.now ≤ turn.redacted.now ↔ other.now ≤ turn.now := Iff.rfl
    rw [List.map_cons, insertTurn, insertTurn, ih]
    simp only [hnow]
    split <;> rfl

/-- The turns of a redacted operation are its redacted turns, wherever the cancellation comes. -/
theorem turns_redacted (operation : Operation) (cancellation : Option Nat) :
    operation.redacted.turns deadline cancellation =
      (operation.turns deadline cancellation).map Turn.redacted := by
  have hturns : turnsFrom deadline 0 .idle operation.redacted =
      (turnsFrom deadline 0 .idle operation).map Turn.redacted := operation.turnsFrom_redacted .idle
  have hdeadline : insertTurn (deadlineTurn deadline) (turnsFrom deadline 0 .idle operation.redacted) =
      (insertTurn (deadlineTurn deadline) (turnsFrom deadline 0 .idle operation)).map
        Turn.redacted := by
    rw [hturns]
    exact insertTurn_redacted (deadlineTurn deadline) _
  unfold turns
  rw [hdeadline]
  cases cancellation with
  | none => rfl
  | some time => exact insertTurn_redacted (cancellationTurn (wait time)) _

end Operation

namespace Checker

/-- The checker without anything about its defects. -/
def redacted (checker : Checker) : Checker :=
  { checker with operation := fun method task => (checker.operation method task).redacted }

/-- A checker from which the defects are struck out reports the same. -/
theorem report_execute_redacted (checker : Checker) (task : Task) (cancelledBefore : Bool)
    (cancellation : Option Nat) :
    (checker.redacted.execute task cancelledBefore cancellation).report =
      (checker.execute task cancelledBefore cancellation).report := by
  have hturns : (checker.redacted.operationFor task).turns task.timeoutMs.toNat cancellation =
      ((checker.operationFor task).turns task.timeoutMs.toNat cancellation).map Turn.redacted :=
    Operation.turns_redacted _ _
  unfold execute
  rw [hturns]
  exact Execution.report_redacted

end Checker

end CheckHarness
