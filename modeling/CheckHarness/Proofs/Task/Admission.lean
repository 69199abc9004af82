import CheckHarness.Proofs.Task.Validation

namespace CheckHarness

namespace TaskRequest

/-- The member is there. -/
def present (field : String) (member : Option α) : Condition :=
  ⟨field, member.isSome = true⟩

/-- The values of two members of a request are there and go together. -/
def Agree (relation : α → β → Prop) (first : Option α) (second : Option β) : Prop :=
  ∃ a b, first = some a ∧ second = some b ∧ relation a b

variable (request : TaskRequest)

/-- The chain that the request's chain id names. -/
def chain : Option ChainId :=
  request.taskChainId.bind fun text => (ChainId.parse text).toOption

/-- What has to be there. A task may do without a flag. -/
def presence : List Condition :=
  [present "taskId" request.taskId, present "method" request.method,
    present "address" request.address, present "teamId" request.teamId,
    present "teamName" request.teamName, present "currentRoundId" request.currentRoundId,
    present "relatedRoundId" request.relatedRoundId, present "variantId" request.variantId,
    present "timeout" request.timeout, present "roundLength" request.roundLength,
    present "taskChainId" request.taskChainId, present "taskChainId" request.chain]

/-- What has to hold of the values. Of a chain id neither the service nor the variant counts. -/
def consistency : List Condition :=
  [⟨"address", ∃ address, request.address = some address ∧
      ∃ c ∈ address.toList, Text.isBlank c = false⟩,
    ⟨"relatedRoundId", Agree (· ≤ ·) request.relatedRoundId request.currentRoundId⟩,
    ⟨"flag", ∃ method, request.method = some method ∧
      (method = .putFlag ∨ method = .getFlag → ∃ flag, request.flag = some flag ∧ flag ≠ "")⟩,
    ⟨"timeout", ∃ timeout, request.timeout = some timeout ∧ timeout ≠ 0⟩,
    ⟨"taskChainId", Agree (fun chain method => chain.kind = method.chainKind)
      request.chain request.method⟩,
    ⟨"taskChainId", Agree (fun chain round => chain.round = round)
      request.chain request.relatedRoundId⟩,
    ⟨"taskChainId", Agree (fun chain team => chain.team = team) request.chain request.teamId⟩]

/-- All conditions, in the order in which they are looked at. -/
def conditions : List Condition :=
  request.presence ++ request.consistency

/-- The task says what the request says, with the times as spans of so many milliseconds. -/
structure Describes (task : Task) : Prop where
  taskId : request.taskId = some task.id
  method : request.method = some task.method
  address : request.address = some task.address
  teamId : request.teamId = some task.team.id
  teamName : request.teamName = some task.team.name
  currentRound : request.currentRoundId = some task.currentRound
  relatedRound : request.relatedRoundId = some task.relatedRound
  flag : request.flag = task.flag
  variant : request.variantId = some task.variant
  timeout : request.timeout.map Duration.ofMilliseconds = some task.timeout
  roundLength : request.roundLength.map Duration.ofMilliseconds = some task.roundLength
  chain : request.chain = some task.chain

end TaskRequest

namespace Task

variable {request : TaskRequest} {task : Task}

/-- A complete request says everything about its task. -/
theorem describes_of_complete (hcomplete : complete request = .ok task) :
    request.Describes task := by
  obtain ⟨text, rfl, hparse⟩ := complete_eq_ok_iff.mp hcomplete
  have hchain : TaskRequest.chain { task.toRequest with taskChainId := some text } =
      some task.chain := by
    simp only [TaskRequest.chain, Option.bind_some, hparse, Except.toOption]
  exact ⟨rfl, rfl, rfl, rfl, rfl, rfl, rfl, rfl, rfl, rfl, rfl, hchain⟩

/-- A missing member is blamed. -/
theorem decide_require (field : String) (member : Option α) :
    Condition.Decide [TaskRequest.present field member] (require field member) := by
  cases member with
  | some value => exact .single (fun _ => ⟨value, rfl⟩) fun hunmet => absurd rfl hunmet
  | none => exact .single nofun fun _ => ⟨_, rfl⟩

/-- A chain id that names no chain is blamed. -/
theorem decide_parse {text : String} (htext : request.taskChainId = some text) :
    Condition.Decide [TaskRequest.present "taskChainId" request.chain] (ChainId.parse text) := by
  have hchain : request.chain = ChainId.ofText? text := by
    rw [TaskRequest.chain, htext, Option.bind_some, ChainId.parse]
    cases ChainId.ofText? text <;> rfl
  rw [hchain, ChainId.parse]
  cases ChainId.ofText? text with
  | some chain => exact .single (fun _ => ⟨chain, rfl⟩) fun hunmet => absurd rfl hunmet
  | none =>
    refine .single (fun hmet => ?_) fun _ => ⟨_, rfl⟩
    cases hmet

/-- The members are looked at in their order, up to the chain id. -/
theorem decide_complete (request : TaskRequest) :
    Condition.Decide request.presence (complete request) := by
  -- The members are required one after the other; the text of the chain id is read last.
  iterate 10
    refine Condition.Decide.bind (decide_require _ _) fun _ _ => ?_
  refine Condition.Decide.bind (decide_require _ _) fun text htext => ?_
  refine Condition.Decide.bind (decide_parse (require_eq_ok_iff.mp htext)) fun _ _ => ?_
  exact .ok _

/-- A condition on two members of a request that says what the task says. -/
theorem agree_iff {relation : α → β → Prop} {first : Option α} {second : Option β} {a : α} {b : β}
    (hfirst : first = some a) (hsecond : second = some b) :
    TaskRequest.Agree relation first second ↔ relation a b := by
  subst hfirst hsecond
  constructor
  · rintro ⟨_, _, ⟨⟩, ⟨⟩, hrelation⟩
    exact hrelation
  · intro hrelation
    exact ⟨a, b, rfl, rfl, hrelation⟩

/-- Only a put or a get of a flag needs one, which must not be empty. -/
theorem lacksFlag_eq_false_iff (task : Task) :
    task.lacksFlag = false ↔
      (task.method = .putFlag ∨ task.method = .getFlag → ∃ flag, task.flag = some flag ∧ flag ≠ "") := by
  have hmethod : task.method.requiresFlag = true ↔
      task.method = .putFlag ∨ task.method = .getFlag := by
    cases task.method <;> simp [Method.requiresFlag]
  rw [← hmethod, lacksFlag]
  cases task.method.requiresFlag <;> cases task.flag <;> simp

/-- Each conflict that a task may hold is a condition that its request does not meet. -/
theorem checks_conflicts (hcomplete : complete request = .ok task) :
    List.Forall₂ Condition.Checks task.conflicts request.consistency := by
  have hrequest := describes_of_complete hcomplete
  have htimeout : request.timeout = some task.timeoutMs := by
    obtain ⟨_, rfl, _⟩ := complete_eq_ok_iff.mp hcomplete
    rfl
  refine .cons ⟨?_, _, rfl⟩ (.cons ⟨?_, _, rfl⟩ (.cons ⟨?_, _, rfl⟩ (.cons ⟨?_, _, rfl⟩
    (.cons ⟨?_, _, rfl⟩ (.cons ⟨?_, _, rfl⟩ (.cons ⟨?_, _, rfl⟩ .nil))))))
  · simp [Text.isBlankText, hrequest.address]
  · simp [agree_iff hrequest.relatedRound hrequest.currentRound]
  · simp [hrequest.method, hrequest.flag, lacksFlag_eq_false_iff]
  · simp [htimeout]
  · simp [agree_iff hrequest.chain hrequest.method]
  · simp [agree_iff hrequest.chain hrequest.relatedRound]
  · simp [agree_iff hrequest.chain hrequest.teamId]

/-- The check decides all conditions of a request in their order. -/
theorem decide_ofRequest (request : TaskRequest) :
    Condition.Decide request.conditions (ofRequest request) := by
  refine (decide_complete request).bind fun task hcomplete => ?_
  have hconflicts := Condition.Decide.rejectFirst (checks_conflicts hcomplete)
  have hreturn := hconflicts.bind fun _ _ => Condition.Decide.ok task
  rwa [List.append_nil] at hreturn

/-- The requests that meet every condition are tasks, and each task says what its request says. Any
other request is turned down for the member of the first condition that it does not meet. -/
theorem ofRequest_decided (request : TaskRequest) :
    ((∃ task, ofRequest request = .ok task) ↔
      ∀ condition ∈ request.conditions, condition.met) ∧
    (∀ task, ofRequest request = .ok task → request.Describes task) ∧
    ((¬ ∀ condition ∈ request.conditions, condition.met) →
      ∃ condition message, Condition.FirstUnmet request.conditions condition ∧
        ofRequest request = .error (.validation condition.field message)) := by
  have hdecide := decide_ofRequest request
  refine ⟨⟨?_, hdecide.passes⟩, ?_, ?_⟩
  · rintro ⟨task, htask⟩
    exact hdecide.all_met htask
  · intro task htask
    exact describes_of_complete (ofRequest_eq_ok_iff.mp htask).1
  · intro hunmet
    obtain ⟨condition, hfirst⟩ := Condition.exists_firstUnmet hunmet
    obtain ⟨message, herror⟩ := hdecide.blames condition hfirst
    exact ⟨condition, message, hfirst, herror⟩

/-- A request to get a flag of the given rounds, with a chain id that has a sign and leading zeros.
-/
def flagRequest (current related : UInt64) (timeout : Option UInt64) : TaskRequest :=
  ⟨some 1, some .getFlag, some "10.0.0.1", some 4, some "", some current, some related,
    some "FLAG", some 0, timeout, some 60000, some "flag_s9_r007_t+4_i1"⟩

/-- The chain id of this request may be written in an unusual way. Of three things that are wrong
with the other one, the missing time counts. -/
theorem ofRequest_decided_flagRequest :
    (∃ task, ofRequest (flagRequest 7 7 (some 500)) = .ok task ∧
      (flagRequest 7 7 (some 500)).Describes task) ∧
    ∃ condition message, Condition.FirstUnmet (flagRequest 5 6 none).conditions condition ∧
      ofRequest (flagRequest 5 6 none) = .error (.validation condition.field message) ∧
      condition.field = "timeout" := by
  constructor
  · obtain ⟨task, htask⟩ : ∃ task, ofRequest (flagRequest 7 7 (some 500)) = .ok task := ⟨_, rfl⟩
    exact ⟨task, htask, (ofRequest_decided _).2.1 task htask⟩
  · have hfault : ofRequest (flagRequest 5 6 none) =
        .error (.validation "timeout" "missing required field") := rfl
    have hunmet : ¬ ∀ condition ∈ (flagRequest 5 6 none).conditions, condition.met := by
      intro hall
      obtain ⟨task, htask⟩ := (ofRequest_decided _).1.mpr hall
      rw [hfault] at htask
      cases htask
    obtain ⟨condition, message, hfirst, herror⟩ := (ofRequest_decided _).2.2 hunmet
    refine ⟨condition, message, hfirst, herror, ?_⟩
    rw [hfault] at herror
    injection herror with hsame
    injection hsame with hfield
    exact hfield.symm

end Task

end CheckHarness
