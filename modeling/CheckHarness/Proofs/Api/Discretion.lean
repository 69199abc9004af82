import CheckHarness.Proofs.Api.ErrorBody
import CheckHarness.Proofs.Api.Submission
import CheckHarness.Proofs.Execution.Redaction

namespace CheckHarness.Api

section Answers

variable {execute other : Task → Execution} (timestamp : String)

/-- An answer depends on an execution through its report only. -/
theorem submit_eq_of_report (hreport : ∀ task, (execute task).report = (other task).report)
    (body : Bytes) : submit execute timestamp body = submit other timestamp body := by
  unfold submit handle
  split
  · rfl
  cases Submission.ofBody body with
  | rejected error => rfl
  | accepted task => simp only [hreport task]

/-- Two checkers of one description that report alike answer every request alike. -/
theorem answerWith_eq_of_report {checker another : Checker} (hinfo : checker.info = another.info)
    (hreport : ∀ task, (checker.perform task).report = (another.perform task).report)
    (request : Http.Request) :
    answerWith checker timestamp request = answerWith another timestamp request := by
  unfold answerWith answer
  rw [hinfo, submit_eq_of_report timestamp hreport]

/-- The answers of a checker say nothing about its defects. -/
theorem answerWith_redacted (checker : Checker) (request : Http.Request) :
    answerWith checker.redacted timestamp request = answerWith checker timestamp request := by
  have hinfo : checker.redacted.info = checker.info := rfl
  have hreport : ∀ task, (checker.redacted.perform task).report = (checker.perform task).report :=
    fun task => checker.report_execute_redacted task false none
  exact answerWith_eq_of_report timestamp hinfo hreport request

end Answers

/-- Nothing of a defect leaves through an answer. Two runs that differ in nothing but their defects,
in the kind and the texts of a fault that is not the service's or in the message of a crash, come to
the same report, and so do all answers to submissions, and all answers of checkers whose operations
differ in nothing else. If a task is not cancelled, its last log entry shows every text of the
defect that ended it. The faults that the errors of libraries are converted to are defects. The
answer that tells of a fault is the same for all faults that are to be withheld. For every fault its
status is the code in its body, and it names a member only for a fault of the request. -/
theorem defects_withheld (timestamp : String) :
    (∀ task tokens turns others, turns.map Turn.redacted = others.map Turn.redacted →
      (Execution.run task tokens turns).report = (Execution.run task tokens others).report) ∧
    (∀ (tokens : Task → Tokens) (turns others : Task → List Turn),
      (∀ task, (turns task).map Turn.redacted = (others task).map Turn.redacted) → ∀ body,
        submit (fun task => Execution.run task (tokens task) (turns task)) timestamp body =
          submit (fun task => Execution.run task (tokens task) (others task)) timestamp body) ∧
    (∀ checker another : Checker, checker.redacted = another.redacted → ∀ request,
      answerWith checker timestamp request = answerWith another timestamp request) ∧
    (∀ task tokens turns before turn ending,
      Guarded.EndsWith task.timeoutMs.toNat tokens turns before turn ending →
      (Execution.tokensAtEnd task tokens turns).cancelled = false → ending.isDefect = true →
        ∃ shown, (Execution.run task tokens turns).events.getLast? =
            some (Log.error "Checker failed unexpectedly" [("error", shown)]) ∧
          ∀ text ∈ ending.texts, text.toList <:+: shown.toList) ∧
    (∀ fault, Fault.Converted fault → (Ending.returned (.error fault)).isDefect = true) ∧
    (∀ fault another, ErrorBody.Withheld fault → ErrorBody.Withheld another →
      (Http.Reply.ofErrorBody timestamp (.ofFault fault)).status = 500 ∧
        Http.Reply.ofErrorBody timestamp (.ofFault fault) =
          Http.Reply.ofErrorBody timestamp (.ofFault another)) ∧
    (∀ fault,
      (Http.Reply.ofErrorBody timestamp (.ofFault fault)).status = (ErrorBody.ofFault fault).code ∧
      (Http.Reply.ofErrorBody timestamp (.ofFault fault)).status ∈ [400, 404, 500] ∧
      ((ErrorBody.ofFault fault).field.isSome = true ↔
        ∃ field message, fault = .validation field message) ∧
      ∀ time, Timestamp.ofText? timestamp = some time →
        ErrorBody.decode (Http.Reply.ofErrorBody timestamp (.ofFault fault)).body =
          .ok (.ofFault fault, time)) := by
  refine ⟨?_, ?_, ?_, ?_, ?_, ?_, ?_⟩
  · intro task tokens turns others
    exact Execution.report_eq_of_redacted
  · intro tokens turns others hturns
    exact submit_eq_of_report timestamp fun task => Execution.report_eq_of_redacted (hturns task)
  · intro checker another hredacted request
    rw [← answerWith_redacted, hredacted, answerWith_redacted]
  · intro task tokens turns before turn ending
    exact Execution.getLast?_events_of_isDefect
  · intro fault hconverted
    rw [Ending.isDefect, hconverted.isSignal]
    rfl
  · intro fault another hfault hanother
    rw [hfault.ofFault_eq, hanother.ofFault_eq]
    exact ⟨rfl, rfl⟩
  · intro fault
    have hstatus : (Http.Reply.ofErrorBody timestamp (.ofFault fault)).status =
        (ErrorBody.ofFault fault).code := ErrorBody.status_ofFault fault
    refine ⟨hstatus, ?_, ErrorBody.field_ofFault_isSome_iff fault,
      fun time => ErrorBody.decode_encode (.ofFault fault)⟩
    rw [hstatus]
    simpa using ErrorBody.code_ofFault fault

/-- A checker with one operation, which says that it begins. -/
def beginning (next : Operation) : Checker :=
  ⟨⟨"Service", 1, 1, 1⟩, fun _ _ => .log (Log.info "begun" []) next⟩

/-- The checker that runs into a fault of a file and the one that crashes give the same answer, and
the log of the first shows what is wrong. -/
theorem defects_withheld_file :
    (∀ request, answerWith (beginning (.finish (.error (.io "/srv/key: denied")))) "now" request =
      answerWith (beginning (.crash (.text "index out of bounds"))) "now" request) ∧
    ∃ shown, ((beginning (.finish (.error (.io "/srv/key: denied")))).perform
        Execution.havocTask).events.getLast? =
        some (Log.error "Checker failed unexpectedly" [("error", shown)]) ∧
      "/srv/key: denied".toList <:+: shown.toList := by
  have hwithheld := defects_withheld "now"
  refine ⟨hwithheld.2.2.1 _ _ rfl, ?_⟩
  obtain ⟨shown, hlast, htexts⟩ := hwithheld.2.2.2.1 Execution.havocTask ⟨false, false⟩
    ((Operation.log (Log.info "begun" []) (.finish (.error (.io "/srv/key: denied")))).turns 1000 none)
    [] ⟨0, .fresh, ⟨.fresh, 0, [Log.info "begun" []],
      some (.returned (.error (.io "/srv/key: denied")))⟩⟩ _
    ⟨⟨⟨_, rfl⟩, trivial⟩, ⟨rfl, by decide⟩, rfl⟩ rfl rfl
  exact ⟨shown, hlast, htexts _ (List.mem_singleton.mpr rfl)⟩

end CheckHarness.Api
