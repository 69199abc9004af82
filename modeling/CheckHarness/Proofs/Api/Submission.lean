import CheckHarness.Api.Router
import CheckHarness.Proofs.Execution.Announcement
import CheckHarness.Proofs.Execution.Report
import CheckHarness.Proofs.Report
import CheckHarness.Proofs.Task.Transmission

namespace CheckHarness.Api

/-- What a submitted body may hold. -/
inductive Content where
  | malformed (fault : Json.ReadFault)
  /-- A task request whose given member is at fault. -/
  | invalid (field message : String)
  | valid (task : Task)

/-- The body holds this. -/
inductive Holds (body : Bytes) : Content → Prop where
  | malformed {fault : Json.ReadFault} (hdecode : TaskRequest.decode body = .error fault) :
    Holds body (.malformed fault)
  | invalid {request : TaskRequest} {field message : String}
    (hdecode : TaskRequest.decode body = .ok request)
    (hcheck : Task.ofRequest request = .error (.validation field message)) :
    Holds body (.invalid field message)
  | valid {request : TaskRequest} {task : Task} (hdecode : TaskRequest.decode body = .ok request)
    (hcheck : Task.ofRequest request = .ok task) : Holds body (.valid task)

variable {body : Bytes}

theorem Holds.unique {content other : Content} (hcontent : Holds body content)
    (hother : Holds body other) : other = content := by
  cases hcontent <;> cases hother <;> simp_all

section Handle

variable {execute : Task → Execution} {timestamp : String}

/-- A valid task is executed, and its report is the answer. -/
theorem handle_valid {task : Task} (hholds : Holds body (.valid task)) :
    handle execute timestamp body =
      ⟨.withJson 200 (execute task).report.toJson, some (execute task)⟩ := by
  cases hholds with
  | valid hdecode hcheck => simp only [handle, Submission.ofBody, hdecode, hcheck]; rfl

end Handle

end CheckHarness.Api
