import CheckHarness.Task.Draft
import CheckHarness.Proofs.Fault
import CheckHarness.Proofs.Task.ChainId

namespace CheckHarness

namespace Task

variable {request : TaskRequest} {task : Task} {field : String}

theorem require_eq_ok_iff {value? : Option α} {value : α} :
    require field value? = .ok value ↔ value? = some value := by
  cases value? <;> simp [require]

/-- The complete requests are those that are made from tasks, with any text that names the chain. -/
theorem complete_eq_ok_iff :
    complete request = .ok task ↔
      ∃ text, request = { task.toRequest with taskChainId := some text } ∧
        ChainId.parse text = .ok task.chain := by
  simp only [complete, bind_eq_ok_iff, require_eq_ok_iff]
  constructor
  · rintro ⟨_, hid, _, hmethod, _, haddress, _, hteamId, _, hteamName, _, hcurrent, _, hrelated,
      _, hvariant, _, htimeout, _, hlength, text, htext, chain, hchain, hmade⟩
    cases hmade
    refine ⟨text, ?_, hchain⟩
    simp only [toRequest, ← hid, ← hmethod, ← haddress, ← hteamId, ← hteamName, ← hcurrent,
      ← hrelated, ← hvariant, ← htimeout, ← hlength, ← htext]
  · rintro ⟨text, rfl, hchain⟩
    exact ⟨_, rfl, _, rfl, _, rfl, _, rfl, _, rfl, _, rfl, _, rfl, _, rfl, _, rfl, _, rfl, _, rfl,
      _, hchain, rfl⟩

/-- Nothing in the task conflicts with anything else. -/
def Consistent (task : Task) : Prop :=
  ∀ conflict ∈ task.conflicts, conflict.1 = false

/-- A request is a valid task just if it is complete and the task is consistent. -/
theorem ofRequest_eq_ok_iff :
    ofRequest request = .ok task ↔ complete request = .ok task ∧ task.Consistent := by
  simp only [ofRequest, bind_eq_ok_iff]
  constructor
  · rintro ⟨other, hcomplete, ⟨⟩, hreject, hmade⟩
    cases hmade
    exact ⟨hcomplete, Fault.rejectFirst_eq_ok_iff.mp hreject⟩
  · rintro ⟨hcomplete, hconsistent⟩
    exact ⟨task, hcomplete, (), Fault.rejectFirst_eq_ok_iff.mpr hconsistent, rfl⟩

/-- A task that some request describes. -/
def Valid (task : Task) : Prop :=
  ∃ request, ofRequest request = .ok task

theorem Valid.consistent (hvalid : task.Valid) : task.Consistent := by
  obtain ⟨request, hrequest⟩ := hvalid
  exact (ofRequest_eq_ok_iff.mp hrequest).2

/-- The request of a task lacks nothing. -/
theorem complete_toRequest (task : Task) : complete task.toRequest = .ok task :=
  complete_eq_ok_iff.mpr ⟨task.chain.render, rfl, task.chain.parse_render⟩

/-- The request of a valid task passes the check again. -/
theorem Valid.ofRequest_toRequest (hvalid : task.Valid) : ofRequest task.toRequest = .ok task :=
  ofRequest_eq_ok_iff.mpr ⟨task.complete_toRequest, hvalid.consistent⟩

/-- Apart from the way its chain id is written, a request is the one that is made from its task. -/
theorem toRequest_of_ofRequest (hrequest : ofRequest request = .ok task) :
    task.toRequest = { request with taskChainId := some task.chain.render } := by
  obtain ⟨text, rfl, -⟩ := complete_eq_ok_iff.mp (ofRequest_eq_ok_iff.mp hrequest).1
  rfl

/-- The chain of a task is the one that the request names. -/
theorem exists_text_of_ofRequest {request : TaskRequest} (hrequest : ofRequest request = .ok task) :
    ∃ text, request.taskChainId = some text ∧ ChainId.parse text = .ok task.chain := by
  obtain ⟨text, rfl, htext⟩ := complete_eq_ok_iff.mp (ofRequest_eq_ok_iff.mp hrequest).1
  exact ⟨text, rfl, htext⟩

/-- What makes a task consistent. -/
theorem consistent_iff :
    task.Consistent ↔ Text.isBlankText task.address = false ∧
      task.relatedRound ≤ task.currentRound ∧ task.lacksFlag = false ∧ task.timeoutMs ≠ 0 ∧
      task.chain.kind = task.method.chainKind ∧ task.chain.round = task.relatedRound ∧
      task.chain.team = task.team.id := by
  simp [Consistent, conflicts]

/-- A method that works on a flag has one, and it is not empty. -/
theorem Consistent.exists_flag (hconsistent : task.Consistent)
    (hmethod : task.method.requiresFlag = true) : ∃ flag, task.flag = some flag ∧ flag ≠ "" := by
  obtain ⟨-, -, hlacks, -⟩ := consistent_iff.mp hconsistent
  rw [lacksFlag, hmethod, Bool.true_and] at hlacks
  cases hflag : task.flag with
  | none => simp [hflag] at hlacks
  | some flag => exact ⟨flag, rfl, by simpa [hflag] using hlacks⟩

theorem timeoutMs_toNat_pos (htimeout : task.timeoutMs ≠ 0) : 0 < task.timeoutMs.toNat := by
  rw [Nat.pos_iff_ne_zero]
  intro hzero
  exact htimeout (UInt64.toNat_inj.mp hzero)

/-- The chain of a consistent task is of the kind of its method. -/
theorem Consistent.chain_kind (hconsistent : task.Consistent) :
    task.chain.kind = task.method.chainKind := by
  obtain ⟨-, -, -, -, hkind, -⟩ := consistent_iff.mp hconsistent
  exact hkind

section Faults

end Faults

end Task

end CheckHarness
