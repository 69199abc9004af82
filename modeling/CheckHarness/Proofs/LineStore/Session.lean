import CheckHarness.Proofs.LineStore.Storage

namespace CheckHarness.LineStore

/-- A task is performed to its end against a store: in some order of steps the request is sent and
the answer received, and the conclusion is reached before anyone cancels or the time is over. The
store holds the given contents before, and then what the line has left that was sent. -/
inductive Performs (options : ConnectOptions) (contents : Contents) (task : Task) :
    Contents → Report → Prop where
  | intro {asked start ends n conversation received tokens turns before turn}
    (hasked : exchange task = .ok asked)
    (hconnect : Connection.connect options
      (.accepted (Service.respond contents asked.request.line).1) = .ok start)
    (hsteps : Conversation.Steps ends (.start start asked.request.line) n conversation)
    (hcomplete : conversation.Complete)
    (hresults : conversation.results = [.ok [], received.mapError .fault, .ok []])
    (hends : Guarded.EndsWith task.timeoutMs.toNat tokens turns before turn
      (.returned (asked.conclude received)))
    (huncancelled : (Execution.tokensAtEnd task tokens turns).cancelled = false) :
    Performs options contents task
      (Service.respond contents conversation.connection.written).2
      (Execution.run task tokens turns).report

/-- Tasks that are performed one after the other, and their reports. -/
inductive Session (options : ConnectOptions) : Contents → List Task → List Report → Prop where
  | nil {contents} : Session options contents [] []
  | cons {contents task later report tasks reports}
    (hperforms : Performs options contents task later report)
    (hsession : Session options later tasks reports) :
    Session options contents (task :: tasks) (report :: reports)

section Performing

variable {options : ConnectOptions} {before tasks : List Task} {task : Task} {later : Contents}
  {report : Report} {told : List Report}

/-- Every order of steps comes to the report of the checker. One of them is possible, just if there
is room for the options. -/
theorem performs_iff (hcapacity : 23 ≤ options.capacity)
    (hbefore : ∀ task ∈ before, task.Tame options.capacity) (htame : task.Tame options.capacity) :
    Performs options (heldAfter before) task later report ↔
      options.Fits ∧ later = heldAfter (before ++ [task]) ∧
        report = LineStore.report options (heldAfter before) task := by
  have hconsistent := htame.consistent
  have hexchange := exchange_of_consistent hconsistent
  have hdecided : ∀ ends, Conversation.Decided options
      (Service.respond (heldAfter before) task.storeRequest.line).1 ends := by
    rw [respond_heldAfter hcapacity hbefore htame]
    exact (oneLine_answerText hcapacity hbefore task).decided
  have hreport : options.Fits → LineStore.report options (heldAfter before) task = reportOf task
      (heard options (Service.respond (heldAfter before) task.storeRequest.line).1) := fun hfits =>
    report_perform htame.valid hfits (hdecided false) rfl
  rw [heldAfter_concat hconsistent]
  constructor
  · rintro ⟨hasked, hconnect, hsteps, hcomplete, hresults, hends, huncancelled⟩
    cases hexchange.symm.trans hasked
    have hstart := Conversation.Sound.start hconnect task.storeRequest.line
    have hfits : options.Fits := ⟨(Connection.connect_accepted_eq_ok_iff.mp hconnect).1,
      hstart.room_of_complete rfl hsteps hcomplete⟩
    obtain ⟨hwritten, hheard⟩ := (hstart.steps hsteps).results_eq hcomplete
    simp only [hresults, List.cons.injEq, Failure.mapError_fault_inj, true_and, and_true] at hheard
    subst hheard
    rw [hwritten]
    exact ⟨hfits, rfl, (Execution.report_of_endsWith hends huncancelled).trans (hreport hfits).symm⟩
  · rintro ⟨hfits, rfl, rfl⟩
    have hconnect := Connection.connect_accepted_eq_ok_iff.mpr ⟨hfits.capacity, Eq.refl
      (Connection.fresh options (.empty options.capacity)
        (Service.respond (heldAfter before) task.storeRequest.line).1)⟩
    have hstart := Conversation.Sound.start hconnect task.storeRequest.line
    obtain ⟨n, conversation, hsteps, hcomplete⟩ :=
      Conversation.exists_complete hstart hfits.chunk (hdecided false) .refl
    obtain ⟨hwritten, hresults⟩ := (hstart.steps hsteps).results_eq hcomplete
    obtain ⟨-, -, -, htimeout, -⟩ := Task.consistent_iff.mp hconsistent
    -- The schedule may be the shortest one: the operation returns in the first turn.
    obtain ⟨hends, huncancelled⟩ := @endsWith_first task
      ⟨0, .fresh, { Poll.idle with ending := some (.returned ((exchangeOf task).conclude _)) }⟩ []
      _ htimeout rfl rfl rfl rfl
    have hperforms := Performs.intro hexchange hconnect hsteps hcomplete hresults hends huncancelled
    rw [hreport hfits]
    rw [hwritten, Execution.report_of_endsWith hends huncancelled] at hperforms
    exact hperforms

/-- A session that goes on after tasks can only go on as the checker does, and does so if there is
room for the options. -/
theorem session_iff (hcapacity : 23 ≤ options.capacity)
    (hbefore : ∀ task ∈ before, task.Tame options.capacity)
    (htasks : ∀ task ∈ tasks, task.Tame options.capacity) :
    Session options (heldAfter before) tasks told ↔
      (tasks = [] ∨ options.Fits) ∧ told = reports options (heldAfter before) tasks := by
  -- The store holds what the tasks so far have left it, so these grow in the induction.
  induction tasks generalizing before told with
  | nil =>
    constructor
    · rintro ⟨⟩
      exact ⟨.inl rfl, rfl⟩
    · rintro ⟨-, rfl⟩
      exact .nil
  | cons task tasks ih =>
    have htame := htasks task List.mem_cons_self
    have hrest := fun other hother => htasks other (List.mem_cons_of_mem task hother)
    have hsofar : ∀ other ∈ before ++ [task], other.Tame options.capacity := by
      intro other hother
      rcases List.mem_append.mp hother with hother | hother
      · exact hbefore other hother
      · rwa [List.mem_singleton.mp hother]
    have hafter : (heldAfter before).after task = heldAfter (before ++ [task]) := by
      rw [heldAfter, heldAfter, List.foldl_concat]
    rw [reports, hafter]
    constructor
    · intro hsession
      cases hsession with
      | cons hperforms hsession =>
        obtain ⟨hfits, rfl, rfl⟩ := (performs_iff hcapacity hbefore htame).mp hperforms
        obtain ⟨-, rfl⟩ := (ih hsofar hrest).mp hsession
        exact ⟨.inr hfits, rfl⟩
    · rintro ⟨hroom, rfl⟩
      have hfits : options.Fits := hroom.resolve_left (List.cons_ne_nil task tasks)
      exact .cons ((performs_iff hcapacity hbefore htame).mpr ⟨hfits, rfl, rfl⟩)
        ((ih hsofar hrest).mpr ⟨.inr hfits, rfl⟩)

/-- A task is told what the store makes of it after the tasks before. -/
theorem getElem?_reports (options : ConnectOptions) (contents : Contents) (before after : List Task)
    (task : Task) : (reports options contents (before ++ task :: after))[before.length]? =
      some (LineStore.report options (before.foldl Contents.after contents) task) := by
  induction before generalizing contents with
  | nil => rfl
  | cons first before ih =>
    rw [List.cons_append, reports, List.length_cons, List.getElem?_cons_succ, ih, List.foldl_cons]

end Performing

section Settling

/-- The tasks with the given method on a chain. -/
def tasksOn (method : Method) (chain : ChainId) (before : List Task) : List Task :=
  before.filter fun task => task.method = method ∧ task.chain = chain

/-- What a task is told that comes after others. -/
inductive Settled (before : List Task) (task : Task) : Report → Prop where
  | stored (hmethod : task.method = .putFlag ∨ task.method = .putNoise) :
    Settled before task ⟨.ok, none, some task.chain.render⟩
  | flagFound {put} (hmethod : task.method = .getFlag)
    (hput : (tasksOn .putFlag task.chain before).getLast? = some put)
    (hflag : put.flag = task.flag) :
    Settled before task ⟨.ok, none, none⟩
  | flagMissing (hmethod : task.method = .getFlag)
    (hmissing : ∀ put, (tasksOn .putFlag task.chain before).getLast? = some put →
      put.flag ≠ task.flag) :
    Settled before task ⟨.mumble, some "Flag not found", none⟩
  | noiseFound {put} (hmethod : task.method = .getNoise)
    (hput : put ∈ tasksOn .putNoise task.chain before) :
    Settled before task ⟨.ok, none, none⟩
  | noiseMissing (hmethod : task.method = .getNoise)
    (hmissing : tasksOn .putNoise task.chain before = []) :
    Settled before task ⟨.mumble, some "Noise not found", none⟩
  | havoc (hmethod : task.method = .havoc) : Settled before task ⟨.ok, none, none⟩

variable {before : List Task} {task put : Task} {method : Method} {chain : ChainId}

/-- The kind of a chain says which tasks put something on it. -/
theorem found?_eq_bind (hbefore : ∀ task ∈ before, task.Consistent)
    (hmethod : method = .putFlag ∨ method = .putNoise) (hkind : chain.kind = method.chainKind) :
    found? chain before = (tasksOn method chain before).getLast?.bind Task.stores := by
  rw [found?, lastPut?, tasksOn, List.filter_filter]
  congr 2
  apply List.filter_congr
  intro put hput
  have hputKind := (hbefore put hput).chain_kind
  by_cases hchain : put.chain = chain
  · rw [hchain, hkind] at hputKind
    rcases hmethod with rfl | rfl <;> cases hmade : put.method <;>
      simp [hmade, hchain, Task.stores, Method.chainKind] at hputKind ⊢
  · simp [hchain]

theorem tasksOn_getLast?_eq_some (hlast : (tasksOn method chain before).getLast? = some put) :
    put ∈ before ∧ put.method = method ∧ put.chain = chain := by
  have hmem := List.mem_of_getLast? hlast
  simpa [tasksOn] using hmem

/-- What a getflag is told is settled by the last flag that was put on its chain. -/
theorem settled_getFlag (hbefore : ∀ task ∈ before, task.Consistent)
    (hconsistent : task.Consistent) (hmethod : task.method = .getFlag) :
    Settled before task (reportOfText task (answerText before task)) := by
  have hkind := hconsistent.chain_kind
  obtain ⟨flag, hflag, hnonempty⟩ := hconsistent.exists_flag (by rw [hmethod]; rfl)
  rw [hmethod] at hkind
  simp only [reportOfText, answerText, answerTo, Task.expectedText, Task.published, hmethod,
    found?_eq_bind hbefore (.inl rfl) hkind, hflag, Option.getD_some]
  cases hlast : (tasksOn .putFlag task.chain before).getLast? with
  | none =>
    rw [Option.bind_none, Option.getD_none, if_neg hnonempty.symm]
    exact .flagMissing hmethod (by simp [hlast])
  | some put =>
    obtain ⟨hput, hputMethod, -⟩ := tasksOn_getLast?_eq_some hlast
    obtain ⟨kept, hkept, -⟩ := (hbefore put hput).exists_flag (by rw [hputMethod]; rfl)
    have hstores : put.stores = some kept := by
      simp only [Task.stores, hputMethod, hkept, Option.getD_some]
    rw [Option.bind_some, hstores, Option.getD_some]
    by_cases hsame : kept = flag
    · rw [if_pos hsame]
      exact .flagFound hmethod hlast (by rw [hkept, hflag, hsame])
    · rw [if_neg hsame]
      refine .flagMissing hmethod ?_
      intro other hother hotherFlag
      cases hlast.symm.trans hother
      rw [hkept, hflag, Option.some.injEq] at hotherFlag
      exact hsame hotherFlag

theorem settled_getNoise (hbefore : ∀ task ∈ before, task.Consistent)
    (hconsistent : task.Consistent) (hmethod : task.method = .getNoise) :
    Settled before task (reportOfText task (answerText before task)) := by
  have hkind := hconsistent.chain_kind
  rw [hmethod] at hkind
  simp only [reportOfText, answerText, answerTo, Task.expectedText, Task.published, hmethod,
    found?_eq_bind hbefore (.inr rfl) hkind]
  cases hlast : (tasksOn .putNoise task.chain before).getLast? with
  | none =>
    rw [Option.bind_none, Option.getD_none, if_neg Noise.ofChain_ne_empty.symm]
    exact .noiseMissing hmethod (List.getLast?_eq_none_iff.mp hlast)
  | some put =>
    obtain ⟨-, hputMethod, hchain⟩ := tasksOn_getLast?_eq_some hlast
    have hstores : put.stores = some (Noise.ofChain task.chain.render) := by
      simp only [Task.stores, hputMethod, hchain]
    rw [Option.bind_some, hstores, Option.getD_some, if_pos rfl]
    exact .noiseFound hmethod (List.mem_of_getLast? hlast)

/-- Every task is settled by the tasks before it. -/
theorem settled_reportOfText (hbefore : ∀ task ∈ before, task.Consistent)
    (hconsistent : task.Consistent) :
    Settled before task (reportOfText task (answerText before task)) := by
  cases hmethod : task.method with
  | getFlag => exact settled_getFlag hbefore hconsistent hmethod
  | getNoise => exact settled_getNoise hbefore hconsistent hmethod
  | putFlag | putNoise =>
    simp only [reportOfText, answerText, answerTo, Task.expectedText, Task.published, hmethod,
      if_true]
    exact .stored (by simp [hmethod])
  | havoc =>
    simp only [reportOfText, answerText, answerTo, Task.expectedText, Task.published, hmethod,
      if_true]
    exact .havoc hmethod

end Settling

/-- The answer depends only on the tasks of the same chain. -/
theorem answerText_congr {before others : List Task} {task : Task}
    (hchain : others.filter (·.chain = task.chain) = before.filter (·.chain = task.chain)) :
    answerText others task = answerText before task := by
  simp only [answerText, found?, lastPut?, hchain]

/-- Puts and gets agree over whole sessions. Let valid tasks be performed one after the other
against an honest store that starts empty, where each flag stays on its line and noise fits into the
buffer. The reports of such a session are those of the checker, in whatever order the steps on the
connections are taken, and there is one just if there is room for the options. Every put is told
that all is well. A get of a flag is, just if the last put of a flag on its chain had the same flag;
a get of noise is, just if some noise was put on its chain. Tasks on other chains make no
difference, and a chain is what the text in the request is read as, in whatever numerals it is
written. -/
theorem puts_and_gets_agree {options : ConnectOptions} {tasks : List Task}
    (hcapacity : 23 ≤ options.capacity) (htasks : ∀ task ∈ tasks, task.Tame options.capacity) :
    (∀ told, Session options [] tasks told ↔
      (tasks = [] ∨ options.Fits) ∧ told = reports options [] tasks) ∧
    (options.Fits → ∀ before task after, tasks = before ++ task :: after →
      (∃ report, (reports options [] tasks)[before.length]? = some report ∧
        Settled before task report ∧
        ∀ others, (∀ other ∈ others, other.Tame options.capacity) →
          others.filter (·.chain = task.chain) = before.filter (·.chain = task.chain) →
            (reports options [] (others ++ [task]))[others.length]? = some report) ∧
      ∀ request, Task.ofRequest request = .ok task →
        ∃ text, request.taskChainId = some text ∧ ChainId.parse text = .ok task.chain) := by
  constructor
  · intro told
    exact @session_iff options [] tasks told hcapacity (by simp) htasks
  rintro hfits before task after rfl
  have hbefore : ∀ other ∈ before, other.Tame options.capacity := fun other hother =>
    htasks other (List.mem_append_left _ hother)
  have htame : task.Tame options.capacity := htasks task (by simp)
  constructor
  · refine ⟨reportOfText task (answerText before task), ?_, ?_, ?_⟩
    · rw [getElem?_reports, ← heldAfter, report_heldAfter hcapacity hfits hbefore htame]
    · exact settled_reportOfText (fun other hother => (hbefore other hother).consistent)
        htame.consistent
    · intro others hothers hchain
      rw [getElem?_reports, ← heldAfter, report_heldAfter hcapacity hfits hothers htame,
        answerText_congr hchain]
  · intro request hrequest
    exact Task.exists_text_of_ofRequest hrequest

/-- A task about the given flag, on a chain of the given service. -/
def flagTask (method : Method) (service : UInt64) (flag : String) : Task :=
  { Execution.secondTask with method, flag := some flag, chain := ⟨.flag, service, 1, 1, 0⟩ }

/-- After a put on one chain and a put on another one, the flag of the first is found on its chain,
also in a request with another numeral for the service, and the flag of the second is not. -/
theorem puts_and_gets_agree_crossed :
    Task.ofRequest { (flagTask .getFlag 1 "a flag").toRequest with
      taskChainId := some "flag_s01_r1_t+1_i0" } = .ok (flagTask .getFlag 1 "a flag") ∧
    (reports ⟨.zero, 23, 1, none, ""⟩ [] [flagTask .putFlag 1 "a flag", flagTask .putFlag 2 "other",
      flagTask .getFlag 1 "a flag", flagTask .getFlag 1 "other"])[2]? = some ⟨.ok, none, none⟩ ∧
    (reports ⟨.zero, 23, 1, none, ""⟩ [] [flagTask .putFlag 1 "a flag", flagTask .putFlag 2 "other",
      flagTask .getFlag 1 "a flag", flagTask .getFlag 1 "other"])[3]? =
        some ⟨.mumble, some "Flag not found", none⟩ := by
  have hget : Task.ofRequest { (flagTask .getFlag 1 "a flag").toRequest with
      taskChainId := some "flag_s01_r1_t+1_i0" } = .ok (flagTask .getFlag 1 "a flag") := rfl
  have htame : ∀ task : Task, Task.ofRequest task.toRequest = .ok task →
      OneLine 23 (task.flag.getD "") → task.Tame 23 := by
    intro task hrequest honeLine
    refine ⟨⟨_, hrequest⟩, ?_⟩
    intro _ flag hflag
    rwa [hflag] at honeLine
  have htasks : ∀ task ∈ [flagTask .putFlag 1 "a flag", flagTask .putFlag 2 "other",
      flagTask .getFlag 1 "a flag", flagTask .getFlag 1 "other"], task.Tame 23 := by
    simp only [List.mem_cons, List.not_mem_nil, or_false, forall_eq_or_imp, forall_eq]
    refine ⟨?_, ?_, ?_, ?_⟩
    all_goals exact htame _ rfl ⟨by decide, by decide, by decide⟩
  obtain ⟨-, hsettled⟩ := @puts_and_gets_agree ⟨.zero, 23, 1, none, ""⟩ _ (by decide) htasks
  refine ⟨hget, ?_, ?_⟩
  · obtain ⟨⟨report, hreport, hsettled, -⟩, -⟩ := hsettled ⟨by decide, by decide⟩ [_, _] _ [_] rfl
    cases hsettled with
    | flagFound => exact hreport
    | flagMissing _ hmissing => exact absurd rfl (hmissing (flagTask .putFlag 1 "a flag") rfl)
    | stored hmethod => simp [flagTask] at hmethod
    | noiseFound hmethod | noiseMissing hmethod | havoc hmethod => cases hmethod
  · obtain ⟨⟨report, hreport, hsettled, -⟩, -⟩ := hsettled ⟨by decide, by decide⟩ [_, _, _] _ [] rfl
    cases hsettled with
    | flagFound _ hput hflag =>
      cases hput
      simp [flagTask] at hflag
    | flagMissing => exact hreport
    | stored hmethod => simp [flagTask] at hmethod
    | noiseFound hmethod | noiseMissing hmethod | havoc hmethod => cases hmethod

end CheckHarness.LineStore
