import CheckHarness.Proofs.Task.Admission

namespace CheckHarness

/-- The span without what exceeds whole milliseconds. -/
def Duration.wholeMilliseconds (span : Duration) : Duration where
  nanoseconds := span.nanoseconds / 1000000 * 1000000
  inRange := by
    have hrange := span.inRange
    omega

namespace TaskDraft

/-- What can be said about a draft. -/
inductive Topic where
  | taskId
  | team
  | service
  | rounds
  | flag
  | variant
  | timeout
  | roundLength
  deriving DecidableEq

/-- What is said about a topic. Of two rounds the current one comes first. -/
abbrev Topic.Value : Topic → Type
  | .taskId | .service | .variant => UInt64
  | .team => Team
  | .rounds => UInt64 × UInt64
  | .flag => String
  | .timeout | .roundLength => Duration

/-- A span has less than 2^64 milliseconds. -/
def Topic.Fits : (topic : Topic) → topic.Value → Prop
  | .timeout, span | .roundLength, span => span.milliseconds < UInt64.size
  | _, _ => True

namespace Change

def topic : Change → Topic
  | .taskId _ => .taskId
  | .team _ _ => .team
  | .service _ => .service
  | .rounds _ _ => .rounds
  | .flag _ => .flag
  | .variant _ => .variant
  | .timeout _ => .timeout
  | .roundLength _ => .roundLength

def value : (change : Change) → change.topic.Value
  | .taskId id => id
  | .team id name => ⟨id, name⟩
  | .service id => id
  | .rounds current related => (current, related)
  | .flag text => text
  | .variant id => id
  | .timeout span => span
  | .roundLength span => span

/-- What the change says about a topic. -/
def about (topic : Topic) (change : Change) : Option topic.Value :=
  if h : change.topic = topic then some (h ▸ change.value) else none

end Change

/-- What was said last about a topic. -/
def lastSaid (changes : List Change) (topic : Topic) : Option topic.Value :=
  (changes.filterMap (Change.about topic)).getLast?

/-- The draft about whose topics this is said. -/
def ofSaid (method : Method) (address : String) (said : (topic : Topic) → Option topic.Value) :
    TaskDraft where
  taskId := (said .taskId).getD 0
  method := method
  address := address
  team := (said .team).getD ⟨0, ""⟩
  service := (said .service).getD 0
  currentRound := ((said .rounds).getD (0, 0)).1
  relatedRound := ((said .rounds).getD (0, 0)).2
  flag := said .flag
  variant := (said .variant).getD 0
  timeoutMs := wrappedMilliseconds ((said .timeout).getD (.ofMilliseconds 10000))
  roundLengthMs := wrappedMilliseconds ((said .roundLength).getD (.ofMilliseconds 60000))

/-- A change counts from now on for its own topic. -/
theorem change_ofSaid (method : Method) (address : String)
    (said : (topic : Topic) → Option topic.Value) (change : Change) :
    (ofSaid method address said).change change =
      ofSaid method address fun topic => (change.about topic).or (said topic) := by
  cases change <;> rfl

/-- What was said last is said by the last change about the topic. -/
theorem lastSaid_concat (changes : List Change) (change : Change) :
    lastSaid (changes ++ [change]) =
      fun topic => (change.about topic).or (lastSaid changes topic) := by
  funext topic
  rw [lastSaid, List.filterMap_append, List.getLast?_append, lastSaid]
  cases habout : change.about topic <;> simp [habout]

/-- A draft is what was said last about each topic. -/
theorem changeAll_new (method : Method) (address : String) (changes : List Change) :
    (new method address).changeAll changes = ofSaid method address (lastSaid changes) := by
  -- From the right: the last change decides about its topic, whatever was said before.
  induction changes using List.reverseRecOn with
  | nil => rfl
  | append_singleton changes change ih =>
    rw [changeAll, List.foldl_append, lastSaid_concat, ← change_ofSaid, ← ih]
    rfl

/-- What was said last about a topic depends only on what was said about it. -/
theorem lastSaid_filter (changes : List Change) (topic : Topic) :
    lastSaid (changes.filter (·.topic = topic)) topic = lastSaid changes topic := by
  rw [lastSaid, List.filterMap_filter, lastSaid]
  congr 2
  funext change
  by_cases htopic : change.topic = topic <;> simp [Change.about, htopic]

variable {changes : List Change}

/-- What was said last is in the range of its topic. -/
theorem fits_of_lastSaid (hfits : ∀ change ∈ changes, change.topic.Fits change.value)
    {topic : Topic} {value : topic.Value} (hlast : lastSaid changes topic = some value) :
    topic.Fits value := by
  obtain ⟨change, hchange, habout⟩ := List.mem_filterMap.mp (List.mem_of_getLast? hlast)
  rw [Change.about] at habout
  split at habout
  · rename_i htopic
    subst htopic
    cases habout
    exact hfits change hchange
  · cases habout

section Spans

variable {span : Duration}

theorem toNat_wrappedMilliseconds (hspan : span.milliseconds < UInt64.size) :
    (wrappedMilliseconds span).toNat = span.milliseconds := by
  rw [wrappedMilliseconds, UInt64.toNat_ofNat_of_lt' hspan]

/-- What is left of a span that can be counted are its whole milliseconds. -/
theorem ofMilliseconds_wrappedMilliseconds (hspan : span.milliseconds < UInt64.size) :
    Duration.ofMilliseconds (wrappedMilliseconds span) = span.wholeMilliseconds := by
  apply Duration.ext_nanoseconds
  change (wrappedMilliseconds span).toNat * 1000000 = _
  rw [toNat_wrappedMilliseconds hspan, Duration.milliseconds, Duration.wholeMilliseconds]

/-- A span has no milliseconds just if it is shorter than one. -/
theorem wrappedMilliseconds_ne_zero_iff (hspan : span.milliseconds < UInt64.size) :
    wrappedMilliseconds span ≠ 0 ↔ 1000000 ≤ span.nanoseconds := by
  rw [← UInt64.toNat_inj.ne, toNat_wrappedMilliseconds hspan, Duration.milliseconds,
    UInt64.toNat_zero]
  omega

end Spans

/-- The task that the draft describes, consistent or not. -/
def task (draft : TaskDraft) : Task where
  id := draft.taskId
  method := draft.method
  address := draft.address
  team := draft.team
  currentRound := draft.currentRound
  relatedRound := draft.relatedRound
  flag := draft.flag
  variant := draft.variant
  timeoutMs := draft.timeoutMs
  roundLengthMs := draft.roundLengthMs
  chain := draft.chain

/-- The task of a draft agrees with its chain, so nothing else can be in conflict. -/
theorem finish_eq (draft : TaskDraft) :
    draft.finish =
      (Fault.rejectFirst (draft.task.conflicts.take 4) >>= fun _ => .ok draft.task) := by
  -- The checks from the fifth on compare the task with its chain, which was made from it.
  have hclear : ∀ check ∈ draft.task.conflicts.drop 4, check.1 = false := by
    simp [Task.conflicts, task, chain]
  have hrequest : draft.toRequest = draft.task.toRequest := rfl
  rw [finish, hrequest, Task.ofRequest, Task.complete_toRequest,
    ← Fault.rejectFirst_append_of_clear hclear, List.take_append_drop]
  rfl

/-- The conditions on what was said last, in the order in which they are looked at. -/
def conditions (method : Method) (address : String) (changes : List Change) : List Condition :=
  [⟨"address", ∃ c ∈ address.toList, Text.isBlank c = false⟩,
    ⟨"relatedRoundId", ((lastSaid changes .rounds).getD (0, 0)).2 ≤
      ((lastSaid changes .rounds).getD (0, 0)).1⟩,
    ⟨"flag", method = .putFlag ∨ method = .getFlag →
      ∃ flag, lastSaid changes .flag = some flag ∧ flag ≠ ""⟩,
    ⟨"timeout", 1000000 ≤
      ((lastSaid changes .timeout).getD (.ofMilliseconds 10000)).nanoseconds⟩]

/-- The chain of a kind that was named last. -/
def lastChain (kind : ChainKind) (changes : List Change) : ChainId where
  kind := kind
  service := (lastSaid changes .service).getD 0
  round := ((lastSaid changes .rounds).getD (0, 0)).2
  team := ((lastSaid changes .team).getD ⟨0, ""⟩).id
  variant := (lastSaid changes .variant).getD 0

/-- The numbers that chains are made of were last said to be the same. -/
structure SameIds (changes others : List Change) : Prop where
  service : (lastSaid changes .service).getD 0 = (lastSaid others .service).getD 0
  relatedRound : ((lastSaid changes .rounds).getD (0, 0)).2 =
    ((lastSaid others .rounds).getD (0, 0)).2
  team : ((lastSaid changes .team).getD ⟨0, ""⟩).id = ((lastSaid others .team).getD ⟨0, ""⟩).id
  variant : (lastSaid changes .variant).getD 0 = (lastSaid others .variant).getD 0

/-- The task says what was said last, with its spans in whole milliseconds. -/
structure SaysLast (method : Method) (address : String) (changes : List Change) (task : Task) :
    Prop where
  id : task.id = (lastSaid changes .taskId).getD 0
  method : task.method = method
  address : task.address = address
  team : task.team = (lastSaid changes .team).getD ⟨0, ""⟩
  rounds : (task.currentRound, task.relatedRound) = (lastSaid changes .rounds).getD (0, 0)
  flag : task.flag = lastSaid changes .flag
  variant : task.variant = (lastSaid changes .variant).getD 0
  timeout : task.timeout =
    ((lastSaid changes .timeout).getD (.ofMilliseconds 10000)).wholeMilliseconds
  roundLength : task.roundLength =
    ((lastSaid changes .roundLength).getD (.ofMilliseconds 60000)).wholeMilliseconds
  chain : task.chain = lastChain task.method.chainKind changes

section Finishing

variable {method : Method} {address : String}

/-- A span that was said, or else the initial one, can be counted. -/
theorem milliseconds_getD_lt (initial : UInt64) {said : Option Duration}
    (hsaid : ∀ span, said = some span → span.milliseconds < UInt64.size) :
    (said.getD (.ofMilliseconds initial)).milliseconds < UInt64.size := by
  cases said with
  | none =>
    rw [Option.getD_none, Duration.milliseconds_ofMilliseconds]
    exact initial.toNat_lt
  | some span => exact hsaid span rfl

variable (hfits : ∀ change ∈ changes, change.topic.Fits change.value)
include hfits

theorem milliseconds_timeout_lt :
    ((lastSaid changes .timeout).getD (.ofMilliseconds 10000)).milliseconds < UInt64.size :=
  milliseconds_getD_lt 10000 fun span => @fits_of_lastSaid changes hfits .timeout span

theorem milliseconds_roundLength_lt :
    ((lastSaid changes .roundLength).getD (.ofMilliseconds 60000)).milliseconds < UInt64.size :=
  milliseconds_getD_lt 60000 fun span => @fits_of_lastSaid changes hfits .roundLength span

/-- The task of a draft has what was said last. -/
theorem saysLast_task :
    SaysLast method address changes (ofSaid method address (lastSaid changes)).task :=
  ⟨rfl, rfl, rfl, rfl, rfl, rfl, rfl,
    ofMilliseconds_wrappedMilliseconds (milliseconds_timeout_lt hfits),
    ofMilliseconds_wrappedMilliseconds (milliseconds_roundLength_lt hfits), rfl⟩

/-- The checks of a finished draft look at its conditions in their order. -/
theorem checks_conflicts :
    List.Forall₂ Condition.Checks
      ((ofSaid method address (lastSaid changes)).task.conflicts.take 4)
      (conditions method address changes) := by
  have htimeout := wrappedMilliseconds_ne_zero_iff (milliseconds_timeout_lt hfits)
  refine .cons ⟨?_, _, rfl⟩ (.cons ⟨?_, _, rfl⟩ (.cons ⟨?_, _, rfl⟩ (.cons ⟨?_, _, rfl⟩ .nil)))
  · simp [Text.isBlankText, task, ofSaid]
  · rw [decide_eq_false_iff_not]
    exact UInt64.not_lt
  · exact Task.lacksFlag_eq_false_iff _
  · rw [beq_eq_false_iff_ne]
    exact htimeout

/-- Finishing a draft decides its conditions in their order. -/
theorem decide_finish :
    Condition.Decide (conditions method address changes)
      (ofSaid method address (lastSaid changes)).finish := by
  rw [finish_eq, ← List.append_nil (conditions method address changes)]
  exact (Condition.Decide.rejectFirst (checks_conflicts hfits)).bind fun _ _ => .ok _

end Finishing

/-- A draft is finished as its task. -/
theorem eq_task_of_finish {draft : TaskDraft} {task : Task} (hfinish : draft.finish = .ok task) :
    task = draft.task := by
  rw [finish_eq, bind_eq_ok_iff] at hfinish
  obtain ⟨_, -, hok⟩ := hfinish
  exact (Except.ok.inj hok).symm

/-- The chain id of a draft follows from what was said last about its numbers. -/
theorem chain_changeAll (method : Method) (address : String) (changes : List Change) :
    ((new method address).changeAll changes).chain = lastChain method.chainKind changes := by
  rw [changeAll_new]
  rfl

/-- Drafts that say the same about the numbers of the chain have the same chain id. -/
theorem SameIds.lastChain_eq {others : List Change} (hsame : SameIds changes others)
    (kind : ChainKind) : lastChain kind changes = lastChain kind others := by
  simp only [lastChain, hsame.service, hsame.relatedRound, hsame.team, hsame.variant]

/-- Changes that say the same about each topic, in the same order, make the same draft. -/
theorem changeAll_congr {method : Method} {address : String} {others : List Change}
    (hsame : ∀ topic, changes.filter (·.topic = topic) = others.filter (·.topic = topic)) :
    (new method address).changeAll changes = (new method address).changeAll others := by
  have hlast : lastSaid changes = lastSaid others := by
    funext topic
    rw [← lastSaid_filter changes, hsame, lastSaid_filter]
  rw [changeAll_new, changeAll_new, hlast]

/-- A finished draft says what was said last, and its chain is made from it. It is finished just if
what was said last meets the conditions; otherwise the first that is not met is blamed, never the
chain and never something that is missing. Changes about different topics may come in any order, and
a put and its get with the same numbers have the same chain. -/
theorem finish_decided :
    (∀ method address changes,
      (∀ change ∈ changes, Topic.Fits (Change.topic change) change.value) →
      ((∃ task, ((new method address).changeAll changes).finish = .ok task) ↔
        ∀ condition ∈ conditions method address changes, condition.met) ∧
      (∀ task, ((new method address).changeAll changes).finish = .ok task →
        SaysLast method address changes task) ∧
      ∀ fault, ((new method address).changeAll changes).finish = .error fault →
        ∃ condition message,
          Condition.FirstUnmet (conditions method address changes) condition ∧
          fault = .validation condition.field message) ∧
    (∀ method address changes others,
      (∀ topic, changes.filter (Change.topic · = topic) = others.filter (Change.topic · = topic)) →
      ((new method address).changeAll changes).finish =
        ((new method address).changeAll others).finish ∧
      ((new method address).changeAll changes).chain =
        ((new method address).changeAll others).chain) ∧
    ∀ put get, (put, get) ∈ [(Method.putFlag, Method.getFlag), (.putNoise, .getNoise)] →
      ∀ address other changes others, SameIds changes others →
        ((new put address).changeAll changes).chain = ((new get other).changeAll others).chain ∧
        ∀ task gotten, ((new put address).changeAll changes).finish = .ok task →
          ((new get other).changeAll others).finish = .ok gotten → task.chain = gotten.chain := by
  refine ⟨?_, ?_, ?_⟩
  · intro method address changes hfits
    have hdecide := @decide_finish changes method address hfits
    simp only [changeAll_new]
    refine ⟨⟨fun ⟨_, hok⟩ => hdecide.all_met hok, hdecide.passes⟩, ?_,
      fun _ => hdecide.exists_blamed⟩
    intro task hfinish
    rw [eq_task_of_finish hfinish]
    exact saysLast_task hfits
  · intro method address changes others hsame
    rw [changeAll_congr hsame]
    exact ⟨rfl, rfl⟩
  · intro put get hpair address other changes others hids
    have hkind : put.chainKind = get.chainKind := by
      simp only [List.mem_cons, Prod.mk.injEq, List.not_mem_nil, or_false] at hpair
      rcases hpair with ⟨rfl, rfl⟩ | ⟨rfl, rfl⟩ <;> rfl
    have hchain : ((new put address).changeAll changes).chain =
        ((new get other).changeAll others).chain := by
      rw [chain_changeAll, chain_changeAll, hkind, hids.lastChain_eq]
    refine ⟨hchain, fun task gotten hput hget => ?_⟩
    rw [eq_task_of_finish hput, eq_task_of_finish hget]
    exact hchain

/-- Changes for a put; the service is said twice. -/
def putChanges : List Change :=
  [.service 3, .flag "FLAG", .rounds 9 7, .service 4, .timeout { nanoseconds := 1999999 }]

/-- Changes for the get that belongs to the put. -/
def getChanges : List Change :=
  [.rounds 10 7, .service 4, .flag "FLAG"]

/-- The service that was said last counts, and the get may say things in another order. -/
theorem finish_decided_changes :
    (∃ task, ((new .putFlag "10.0.0.1").changeAll putChanges).finish = .ok task ∧
      SaysLast .putFlag "10.0.0.1" putChanges task ∧
      ∃ gotten, ((new .getFlag "10.0.0.1").changeAll getChanges).finish = .ok gotten ∧
        task.chain = gotten.chain) ∧
    ((new .getFlag "10.0.0.1").changeAll getChanges).finish =
      ((new .getFlag "10.0.0.1").changeAll getChanges.reverse).finish := by
  obtain ⟨hfinish, horder, hpair⟩ := finish_decided
  constructor
  · obtain ⟨task, htask⟩ :
        ∃ task, ((new .putFlag "10.0.0.1").changeAll putChanges).finish = .ok task := ⟨_, rfl⟩
    obtain ⟨gotten, hgotten⟩ :
        ∃ gotten, ((new .getFlag "10.0.0.1").changeAll getChanges).finish = .ok gotten := ⟨_, rfl⟩
    have hfits : ∀ change ∈ putChanges, Topic.Fits (Change.topic change) change.value := by
      simp [putChanges, Topic.Fits, Change.topic, Change.value, Duration.milliseconds, UInt64.size]
    have hids : SameIds putChanges getChanges := ⟨rfl, rfl, rfl, rfl⟩
    obtain ⟨-, hsays, -⟩ := hfinish .putFlag "10.0.0.1" putChanges hfits
    obtain ⟨-, hchain⟩ := hpair .putFlag .getFlag (by simp) "10.0.0.1" "10.0.0.1" _ _ hids
    exact ⟨task, htask, hsays task htask, gotten, hgotten, hchain task gotten htask hgotten⟩
  · have hsame : ∀ topic, getChanges.filter (Change.topic · = topic) =
        getChanges.reverse.filter (Change.topic · = topic) := by
      intro topic
      cases topic <;> rfl
    exact (horder .getFlag "10.0.0.1" _ _ hsame).1

end TaskDraft

end CheckHarness
