import CheckHarness.Api.Submission
import CheckHarness.Client
import CheckHarness.Proofs.Task.Request
import CheckHarness.Proofs.Task.Validation

namespace CheckHarness

/-- Milliseconds of sixty-four bits are counted as they are. -/
theorem TaskDraft.wrappedMilliseconds_ofMilliseconds (n : UInt64) :
    wrappedMilliseconds (.ofMilliseconds n) = n := by
  rw [wrappedMilliseconds, Duration.milliseconds_ofMilliseconds, UInt64.ofNat_toNat]

namespace Task

/-- The two ways to come by a task: checking a request and finishing a draft. -/
inductive Produced : Task → Prop where
  | checked {request : TaskRequest} {task : Task} (hrequest : ofRequest request = .ok task) :
    Produced task
  | drafted {method : Method} {address : String} {changes : List TaskDraft.Change} {task : Task}
    (hfinish : ((TaskDraft.new method address).changeAll changes).finish = .ok task) :
    Produced task

variable {task : Task}

/-- A task that was produced passes the check. -/
theorem Produced.valid (hproduced : task.Produced) : task.Valid := by
  cases hproduced with
  | checked hrequest => exact ⟨_, hrequest⟩
  | drafted hfinish => exact ⟨_, hfinish⟩

/-- The service reads the request that the client has made from a task. -/
theorem decode_submission (task : Task) :
    TaskRequest.decode (Client.submission task).body = .ok task.toRequest :=
  task.toRequest.decode_encode

/-- The service accepts a valid task as it was submitted. -/
theorem Valid.ofBody_submission (hvalid : task.Valid) :
    Submission.ofBody (Client.submission task).body = .accepted task := by
  simp only [Submission.ofBody, decode_submission, hvalid.ofRequest_toRequest]

/-- The request of a valid task is kept by the check. -/
theorem Valid.map_toRequest (hvalid : task.Valid) :
    (ofRequest task.toRequest).map toRequest = .ok task.toRequest := by
  rw [hvalid.ofRequest_toRequest]
  rfl

/-- A task arrives as it was sent, its times included. Every request that describes it differs from
the one that is sent in the text of the chain id at most, and sending it on changes nothing. -/
theorem arrives_unchanged (hproduced : task.Produced) :
    TaskRequest.decode (Client.submission task).body = .ok task.toRequest ∧
      ofRequest task.toRequest = .ok task ∧
      Submission.ofBody (Client.submission task).body = .accepted task ∧
      task.toRequest.timeout = some (TaskDraft.wrappedMilliseconds task.timeout) ∧
      task.toRequest.roundLength = some (TaskDraft.wrappedMilliseconds task.roundLength) ∧
      (ofRequest task.toRequest).map toRequest = .ok task.toRequest ∧
      ∀ request, ofRequest request = .ok task →
        task.toRequest = { request with taskChainId := some task.chain.render } ∧
        ∃ text, request.taskChainId = some text ∧ ChainId.parse text = .ok task.chain := by
  have hvalid := hproduced.valid
  have htimes (n : UInt64) :
      some n = some (TaskDraft.wrappedMilliseconds (.ofMilliseconds n)) := by
    rw [TaskDraft.wrappedMilliseconds_ofMilliseconds]
  refine ⟨task.decode_submission, hvalid.ofRequest_toRequest, hvalid.ofBody_submission,
    htimes task.timeoutMs, htimes task.roundLengthMs, hvalid.map_toRequest, ?_⟩
  intro request hrequest
  exact ⟨toRequest_of_ofRequest hrequest, exists_text_of_ofRequest hrequest⟩

/-- A task with other letters, quotes and control characters arrives as it was. -/
theorem arrives_unchanged_drafted :
    ∃ task, ((TaskDraft.new .getFlag "шлюз \"Ω\"").changeAll
        [.rounds 18446744073709551615 5, .flag "\x00\\ключ\n"]).finish = .ok task ∧
      Submission.ofBody (Client.submission task).body = .accepted task := by
  obtain ⟨task, hfinish⟩ : ∃ task, ((TaskDraft.new .getFlag "шлюз \"Ω\"").changeAll
      [.rounds 18446744073709551615 5, .flag "\x00\\ключ\n"]).finish = .ok task := ⟨_, rfl⟩
  obtain ⟨-, -, haccepted, -⟩ := arrives_unchanged (.drafted hfinish)
  exact ⟨task, hfinish, haccepted⟩

end Task

end CheckHarness
