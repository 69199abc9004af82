import CheckHarness.Cli.Command
import CheckHarness.Proofs.Task.Draft

namespace CheckHarness

namespace Duration

/-- The span is the other one, cut to whole milliseconds. -/
structure CutOf (kept span : Duration) : Prop where
  whole : 1000000 ∣ kept.nanoseconds
  le : kept.nanoseconds ≤ span.nanoseconds
  lt : span.nanoseconds < kept.nanoseconds + 1000000

/-- What is left of a span whose milliseconds are counted in sixty-four bits. -/
def wrapped (span : Duration) : Duration where
  nanoseconds := span.milliseconds % UInt64.size * 1000000
  inRange := by
    have hremainder := Nat.mod_lt span.milliseconds (show 0 < UInt64.size by decide)
    simp only [UInt64.size] at hremainder ⊢
    omega

variable {span : Duration}

/-- The milliseconds that are left are a remainder. -/
theorem milliseconds_wrapped (span : Duration) :
    span.wrapped.milliseconds = span.milliseconds % UInt64.size :=
  Nat.mul_div_cancel _ (by omega)

theorem milliseconds_wrapped_lt (span : Duration) : span.wrapped.milliseconds < UInt64.size := by
  rw [milliseconds_wrapped]
  exact Nat.mod_lt _ (by decide)

/-- A span is cut to whole milliseconds just if sixty-four bits can count them. -/
theorem cutOf_wrapped_iff : span.wrapped.CutOf span ↔ span.milliseconds < UInt64.size := by
  have hcount : span.milliseconds = span.nanoseconds / 1000000 := rfl
  have hleft : span.wrapped.nanoseconds = span.milliseconds % UInt64.size * 1000000 := rfl
  constructor
  · rintro ⟨-, -, hlt⟩
    have hremainder := Nat.mod_lt span.milliseconds (show 0 < UInt64.size by decide)
    omega
  · intro hsmall
    rw [Nat.mod_eq_of_lt hsmall] at hleft
    refine ⟨⟨span.milliseconds, by omega⟩, by omega, by omega⟩

/-- Something is left just if the milliseconds are no multiple of 2^64. -/
theorem wrapped_pos_iff : 1000000 ≤ span.wrapped.nanoseconds ↔ ¬ UInt64.size ∣ span.milliseconds := by
  have hleft : span.wrapped.nanoseconds = span.milliseconds % UInt64.size * 1000000 := rfl
  rw [Nat.dvd_iff_mod_eq_zero]
  omega

end Duration

namespace TaskDraft

/-- The span of the counted milliseconds is what is left. -/
theorem ofMilliseconds_eq_wrapped (span : Duration) :
    Duration.ofMilliseconds (wrappedMilliseconds span) = span.wrapped := by
  apply Duration.ext_nanoseconds
  change (UInt64.ofNat span.milliseconds).toNat * 1000000 = span.milliseconds % UInt64.size * 1000000
  rw [UInt64.toNat_ofNat']

/-- Of what is left the same milliseconds are counted. -/
theorem wrappedMilliseconds_wrapped (span : Duration) :
    wrappedMilliseconds span.wrapped = wrappedMilliseconds span := by
  apply UInt64.toNat_inj.mp
  rw [toNat_wrappedMilliseconds span.milliseconds_wrapped_lt, Duration.milliseconds_wrapped,
    wrappedMilliseconds, UInt64.toNat_ofNat']

/-- What a draft takes in of what is said about a topic. -/
def Topic.carry : (topic : Topic) → topic.Value → topic.Value
  | .timeout, span | .roundLength, span => Duration.wrapped span
  | .taskId, value | .team, value | .service, value | .rounds, value | .flag, value
  | .variant, value => value

/-- The change as far as a draft takes it in. -/
def Change.carried : Change → Change
  | .timeout span => .timeout span.wrapped
  | .roundLength span => .roundLength span.wrapped
  | change => change

/-- The span that was last said to be the timeout, which is ten seconds at first. -/
def lastTimeout (changes : List Change) : Duration :=
  (lastSaid changes .timeout).getD (.ofMilliseconds 10000)

/-- The span that was last said to be the length of a round, which is a minute at first. -/
def lastRoundLength (changes : List Change) : Duration :=
  (lastSaid changes .roundLength).getD (.ofMilliseconds 60000)

/-- The conditions on what was said last, as far as a draft takes it in. -/
def carriedConditions (method : Method) (address : String) (changes : List Change) :
    List Condition :=
  (conditions method address changes).take 3 ++
    [⟨"timeout", ¬ UInt64.size ∣ (lastTimeout changes).milliseconds⟩]

variable {method : Method} {address : String} {changes : List Change} {task : Task}

/-- A draft cannot tell a change from what it takes in of it. -/
theorem changeAll_carried (draft : TaskDraft) (changes : List Change) :
    draft.changeAll (changes.map Change.carried) = draft.changeAll changes := by
  have hchange : ∀ (draft : TaskDraft) change, draft.change (Change.carried change) =
      draft.change change := by
    intro draft change
    cases change with
    | timeout span | roundLength span =>
      simp only [Change.carried, TaskDraft.change, wrappedMilliseconds_wrapped]
    | _ => rfl
  simp only [changeAll, List.foldl_map, hchange]

/-- What is left of a change is in the range of its topic. -/
theorem fits_carried : ∀ change ∈ changes.map Change.carried, change.topic.Fits change.value := by
  rw [List.forall_mem_map]
  intro change _
  cases change with
  | timeout span | roundLength span => exact span.milliseconds_wrapped_lt
  | _ => trivial

theorem about_carried (topic : Topic) (change : Change) :
    change.carried.about topic = (change.about topic).map topic.carry := by
  cases change <;> cases topic <;> rfl

/-- What is left of the last change is what counts. -/
theorem lastSaid_carried (changes : List Change) (topic : Topic) :
    lastSaid (changes.map Change.carried) topic = (lastSaid changes topic).map topic.carry := by
  have habout : Change.about topic ∘ Change.carried =
      fun change => (change.about topic).map topic.carry :=
    funext (about_carried topic)
  rw [lastSaid, List.filterMap_map, habout, ← List.map_filterMap, List.getLast?_map, lastSaid]

/-- An initial value of which all is left may be put in later. -/
theorem getD_map_wrapped (said : Option Duration) {initial : Duration}
    (hinitial : initial.wrapped = initial) :
    (said.map Duration.wrapped).getD initial = (said.getD initial).wrapped := by
  cases said with
  | none => exact hinitial.symm
  | some span => rfl

/-- Of the conditions only the one on the timeout sees a difference. -/
theorem conditions_carried (method : Method) (address : String) (changes : List Change) :
    conditions method address (changes.map Change.carried) =
      carriedConditions method address changes := by
  have hrounds : lastSaid (changes.map Change.carried) .rounds = lastSaid changes .rounds :=
    (lastSaid_carried changes .rounds).trans Option.map_id'
  have hflag : lastSaid (changes.map Change.carried) .flag = lastSaid changes .flag :=
    (lastSaid_carried changes .flag).trans Option.map_id'
  have htimeout : (lastSaid (changes.map Change.carried) .timeout).getD (.ofMilliseconds 10000) =
      (lastTimeout changes).wrapped := by
    rw [lastSaid_carried]
    exact getD_map_wrapped _ rfl
  rw [conditions, hrounds, hflag, htimeout, Duration.wrapped_pos_iff]
  rfl

/-- A draft is checked by what is left of its spans. -/
theorem decide_finish_carried :
    Condition.Decide (carriedConditions method address changes)
      ((new method address).changeAll changes).finish := by
  have hdecide := @decide_finish (changes.map Change.carried) method address fits_carried
  rwa [conditions_carried, ← changeAll_new, changeAll_carried] at hdecide

/-- The finished task has what is left of the last timeout. -/
theorem timeout_of_finish (hfinish : ((new method address).changeAll changes).finish = .ok task) :
    task.timeout = (lastTimeout changes).wrapped := by
  rw [eq_task_of_finish hfinish, changeAll_new]
  exact ofMilliseconds_eq_wrapped (lastTimeout changes)

/-- The finished task has what is left of the last round length. -/
theorem roundLength_of_finish
    (hfinish : ((new method address).changeAll changes).finish = .ok task) :
    task.roundLength = (lastRoundLength changes).wrapped := by
  rw [eq_task_of_finish hfinish, changeAll_new]
  exact ofMilliseconds_eq_wrapped (lastRoundLength changes)

/-- A finished task has what is left of the spans that were said last. Each of the two is the one
that was said, cut to whole milliseconds, just if sixty-four bits can count its milliseconds. No
span is refused for its length: whether there is a task depends on the address, the rounds and the
flag, and on the timeout only in that something is left of it. If there is none, the first of these
conditions that is not met is blamed. -/
theorem finish_keeps_iff (method : Method) (address : String) (changes : List Change) :
    (∀ task, ((new method address).changeAll changes).finish = .ok task →
      task.timeout = (lastTimeout changes).wrapped ∧
      task.roundLength = (lastRoundLength changes).wrapped ∧
      (task.timeout.CutOf (lastTimeout changes) ↔
        (lastTimeout changes).milliseconds < UInt64.size) ∧
      (task.roundLength.CutOf (lastRoundLength changes) ↔
        (lastRoundLength changes).milliseconds < UInt64.size)) ∧
    ((∃ task, ((new method address).changeAll changes).finish = .ok task) ↔
      (∀ condition ∈ (conditions method address changes).take 3, condition.met) ∧
        ¬ UInt64.size ∣ (lastTimeout changes).milliseconds) ∧
    ∀ fault, ((new method address).changeAll changes).finish = .error fault →
      ∃ condition message,
        Condition.FirstUnmet (carriedConditions method address changes) condition ∧
        fault = .validation condition.field message := by
  have hdecide := @decide_finish_carried method address changes
  refine ⟨?_, ?_, fun _ => hdecide.exists_blamed⟩
  · intro task hfinish
    rw [timeout_of_finish hfinish, roundLength_of_finish hfinish]
    exact ⟨rfl, rfl, Duration.cutOf_wrapped_iff, Duration.cutOf_wrapped_iff⟩
  · have hall : (∀ condition ∈ carriedConditions method address changes, condition.met) ↔
        (∀ condition ∈ (conditions method address changes).take 3, condition.met) ∧
          ¬ UInt64.size ∣ (lastTimeout changes).milliseconds := by
      rw [carriedConditions, List.forall_mem_append, List.forall_mem_singleton]
    rw [← hall]
    exact ⟨fun ⟨_, hok⟩ => hdecide.all_met hok, hdecide.passes⟩

/-- A timeout that sixty-four bits can count in milliseconds, and a round of 2^64 milliseconds. -/
def mixedChanges : List Change :=
  [.timeout { nanoseconds := 1500999999 }, .roundLength { nanoseconds := 18446744073709551616000000 }]

/-- Of the timeout what exceeds whole milliseconds is lost, and of the length of the round all. -/
theorem finish_keeps_iff_mixed :
    ∃ task, ((new .havoc "10.0.0.1").changeAll mixedChanges).finish = .ok task ∧
      task.timeout.CutOf { nanoseconds := 1500999999 } ∧
      ¬ task.roundLength.CutOf { nanoseconds := 18446744073709551616000000 } := by
  obtain ⟨task, htask⟩ :
      ∃ task, ((new .havoc "10.0.0.1").changeAll mixedChanges).finish = .ok task := ⟨_, rfl⟩
  obtain ⟨-, -, htimeout, hroundLength⟩ :=
    (finish_keeps_iff .havoc "10.0.0.1" mixedChanges).1 task htask
  have hlong : ¬ (lastRoundLength mixedChanges).milliseconds < UInt64.size := by decide +kernel
  exact ⟨task, htask, htimeout.mpr (by decide +kernel), mt hroundLength.mp hlong⟩

/-- A task whose timeout has 2^64 + 1 milliseconds, as the command line describes it. -/
def longOptions : Cli.TaskOptions where
  url := "http://checker"
  method := .havoc
  address := "10.0.0.1"
  flag := none
  taskId := 1
  teamId := 1
  teamName := "team1"
  serviceId := none
  currentRound := 1
  relatedRound := none
  variant := 0
  timeout := { nanoseconds := 18446744073709551617000000 }
  roundLength := .ofSeconds 60

/-- The command line takes the timeout, and the task that is made of it has one millisecond. -/
theorem finish_longTimeout :
    Cli.Command.ofArguments ["task", "--url", "http://checker", "--method", "havoc", "--address",
        "10.0.0.1", "--timeout", "18446744073709551s 617ms"] = .ok (.task longOptions) ∧
      ∃ task, (longOptions.toDraft .standard).finish = .ok task ∧
        task.timeout = .ofMilliseconds 1 ∧ ¬ task.timeout.CutOf longOptions.timeout := by
  constructor
  · decide +kernel
  · obtain ⟨task, htask⟩ : ∃ task, (longOptions.toDraft .standard).finish = .ok task := ⟨_, rfl⟩
    have htimeout : task.timeout = .ofMilliseconds 1 :=
      (timeout_of_finish htask).trans (by decide +kernel)
    refine ⟨task, htask, htimeout, ?_⟩
    rw [htimeout]
    rintro ⟨-, -, hlt⟩
    exact absurd hlt (by decide +kernel)

end TaskDraft

end CheckHarness
