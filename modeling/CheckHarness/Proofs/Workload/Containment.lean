import CheckHarness.Proofs.Connection.Lifecycle
import CheckHarness.Proofs.Execution.Guard
import CheckHarness.Proofs.Workload.Tree

namespace CheckHarness.Workload

variable {workload next : Workload} {move : Move}

theorem tree_setJob {index : Nat} {job : Job} (hjob : workload.jobs[index]? = some job)
    (stage : Stage) : (workload.setJob index { job with stage }).tree = workload.tree :=
  congrArg (Tree.mk workload.callers · (workload.links.map Link.place)) (map_set_of_eq hjob rfl)

theorem tree_setLink {index : Nat} {link : Link} (hlink : workload.links[index]? = some link)
    (connection : Connection) (dropped : Bool) :
    (workload.setLink index { link with connection, dropped }).tree = workload.tree :=
  congrArg (Tree.mk workload.callers (workload.jobs.map Job.place)) (map_set_of_eq hlink rfl)

theorem tree_execute (caller : Nat) (task : Task) (token : CancellationToken) :
    (workload.execute caller task token).tree =
      { workload.tree with
        jobs := workload.tree.jobs ++ [(caller, token.child workload.tree.jobs.length)] } := by
  simp [tree, execute, Job.place]

theorem tree_link (index : Nat) (job : Job) (connection : Connection) :
    (workload.link index job connection).tree =
      { workload.tree with
        links := workload.tree.links ++ [(index, job.token.child workload.tree.links.length)] } := by
  simp [tree, link, Link.place]

theorem getElem?_jobs_tree {index : Nat} {job : Job} (hjob : workload.jobs[index]? = some job) :
    workload.tree.jobs[index]? = some (job.caller, job.token) := by
  rw [tree, List.getElem?_map, hjob]
  rfl

theorem getElem?_links_tree {index : Nat} {link : Link}
    (hlink : workload.links[index]? = some link) :
    workload.tree.links[index]? = some (link.job, link.token) := by
  rw [tree, List.getElem?_map, hlink]
  rfl

/-- No move takes anything out of the tree. -/
theorem Transition.grows (htransition : Transition workload move next) :
    Tree.Grows workload.tree next.tree := by
  have hsame : next.tree = workload.tree → Tree.Grows workload.tree next.tree := by
    intro htree
    rw [htree]
    exact .same
  cases htransition with
  | enroll => exact .caller
  | execute hcaller task =>
    rw [tree_execute]
    exact .job hcaller
  | connect hjob hconnect =>
    rw [tree_link]
    exact .link (getElem?_jobs_tree hjob)
  | stop hjob | ready hjob | pass hjob | pending hjob => exact hsame (tree_setJob hjob _)
  | cancelCaller | cancelTask | unreachable => exact .same
  | @act index link move connection _ hlink =>
    exact hsame (tree_setLink hlink connection link.dropped)
  | drop hlink => exact hsame (tree_setLink hlink _ true)

/-- The owner whose token a move may cancel. -/
def Move.target? : Move → Option Owner
  | .cancelCaller caller => some (.caller caller)
  | .look job _ | .poll job _ _ _ | .cancelTask job => some (.job job)
  | .act link _ | .drop link => some (.link link)
  | .enroll | .execute _ _ | .connect _ _ _ => none

theorem token?_job {index : Nat} {job : Job} (hjob : workload.jobs[index]? = some job) :
    workload.tree.token? (.job index) = some job.token := by
  rw [Tree.token?, getElem?_jobs_tree hjob]
  rfl

theorem token?_link {index : Nat} {link : Link} (hlink : workload.links[index]? = some link) :
    workload.tree.token? (.link index) = some link.token := by
  rw [Tree.token?, getElem?_links_tree hlink]
  rfl

/-- A move cancels no token or that of its target. -/
theorem Transition.cancelled_eq (htransition : Transition workload move next) :
    next.cancelled = workload.cancelled ∨ ∃ target token, move.target? = some target ∧
      workload.tree.token? target = some token ∧ next.cancelled = token :: workload.cancelled := by
  cases htransition with
  | enroll | execute | connect | unreachable | pass | pending => exact .inl rfl
  | cancelCaller hcaller => exact .inr ⟨_, _, rfl, hcaller, rfl⟩
  | cancelTask hjob | stop hjob | ready hjob => exact .inr ⟨_, _, rfl, token?_job hjob, rfl⟩
  | @act index link _ connection _ hlink =>
    unfold moved cancelIf
    cases connection.cancelled with
    | true => exact .inr ⟨_, _, rfl, token?_link hlink, rfl⟩
    | false => exact .inl rfl
  | @drop index link hlink =>
    unfold Workload.drop cancelIf
    cases link.connection.closed with
    | true => exact .inl rfl
    | false => exact .inr ⟨_, _, rfl, token?_link hlink, rfl⟩

/-- What is cancelled stays so. -/
theorem Transition.isCancelled_mono (htransition : Transition workload move next)
    {token : CancellationToken} (hcancelled : workload.isCancelled token = true) :
    next.isCancelled token = true := by
  unfold isCancelled at hcancelled ⊢
  rcases htransition.cancelled_eq with heq | ⟨target, other, -, -, heq⟩
  · rwa [heq]
  · rw [heq]
    exact CancellationToken.isCancelled_cons_iff.mpr (.inr hcancelled)

/-- The tokens of a job are the two of its guard. -/
theorem cancelled_tokens (hplanted : workload.tree.Planted) {index : Nat} {job : Job}
    (hjob : workload.jobs[index]? = some job) :
    (workload.tokens job).cancelled = workload.isCancelled job.token := by
  obtain ⟨above, habove, htoken⟩ :=
    hplanted.jobs index job.caller job.token (getElem?_jobs_tree hjob)
  have hcaller : workload.callers[job.caller]? = some above := habove
  rw [Tokens.cancelled, tokens, hcaller, Option.any_some, isCancelled, isCancelled, htoken,
    CancellationToken.isCancelled, Bool.or_comm]

/-- Whether the task is cancelled as far as its guard knows. -/
def Stage.isStopped : Stage → Bool
  | .waiting progress | .polled _ progress => progress.tokens.cancelled
  | .ended _ => true

/-- The task is cancelled if its guard knows of a cancellation or its execution has ended. -/
def Job.Settled (workload : Workload) (job : Job) : Prop :=
  job.stage.isStopped = true → workload.isCancelled job.token = true

/-- The connection is cancelled if it was at the last of its own moves, or is not held any more. -/
structure Link.Settled (workload : Workload) (link : Link) : Prop where
  sound : ∃ options, link.connection.Sound options
  cancelled : link.connection.cancelled = true ∨ link.dropped = true →
    workload.isCancelled link.token = true

structure Settled (workload : Workload) : Prop where
  jobs : ∀ job ∈ workload.jobs, Job.Settled workload job
  links : ∀ link ∈ workload.links, Link.Settled workload link

theorem isCancelled_cancel (workload : Workload) (token : CancellationToken) :
    (workload.cancel token).isCancelled token = true :=
  CancellationToken.isCancelled_cons_iff.mpr (.inl .refl)

theorem isCancelled_cancelIf {condition : Bool} {token : CancellationToken}
    (h : condition = true ∨ workload.isCancelled token = true) :
    (workload.cancelIf condition token).isCancelled token = true := by
  cases condition with
  | true => exact isCancelled_cancel workload token
  | false => exact h.resolve_left (by simp)

theorem settled_execute (caller : Nat) (task : Task) (token : CancellationToken) (number : Nat) :
    Job.Settled workload ⟨caller, task, token.child number,
      .waiting (.initial ⟨workload.isCancelled token, false⟩)⟩ := by
  intro hstopped
  have hcancelled : workload.isCancelled token = true := by
    simpa [Stage.isStopped, Guarded.Progress.initial, Tokens.cancelled] using hstopped
  exact CancellationToken.isCancelled_child hcancelled

/-- A job whose operation goes on knows the tokens as they were after the poll. -/
theorem settled_pending (hplanted : workload.tree.Planted) {index now : Nat} {job : Job}
    {progress : Guarded.Progress} {poll : Poll} (hjob : workload.jobs[index]? = some job)
    (hstage : job.stage = .polled now progress) (hsettled : Job.Settled workload job)
    (hcancels : poll.cancels = workload.tokens job) :
    Job.Settled workload { job with stage := .waiting (progress.polled poll) } := by
  intro hstopped
  rw [Stage.isStopped, Guarded.Progress.polled, Tokens.cancelled_join, hcancels,
    cancelled_tokens hplanted hjob, Bool.or_eq_true] at hstopped
  rcases hstopped with hnoticed | hcancelled
  · exact hsettled (by rwa [hstage])
  · exact hcancelled

theorem settled_of_connect {options : ConnectOptions} {stream : Bytes} {connection : Connection}
    (hconnect : Connection.connect options (.accepted stream) = .ok connection) (index : Nat)
    (token : CancellationToken) : Link.Settled workload ⟨index, token, connection, false⟩ := by
  refine ⟨⟨options, .of_connect hconnect⟩, ?_⟩
  obtain ⟨-, rfl⟩ := Connection.connect_accepted_eq_ok_iff.mp hconnect
  simp [Connection.fresh]

/-- The fill loop of a settled connection stops when it is closed. -/
theorem Link.Settled.stopsReading {link : Link} (hsettled : link.Settled workload) :
    link.connection.StopsReading := by
  obtain ⟨options, hsound⟩ := hsettled.sound
  exact hsound.stops

/-- A connection whose token is cancelled from above is like one that is cancelled itself. -/
theorem Link.Settled.connection {link : Link} (hsettled : link.Settled workload) :
    ∃ options, (workload.connection link).Sound options := by
  obtain ⟨options, hsound⟩ := hsettled.sound
  refine ⟨options, ?_⟩
  cases hcancelled : workload.isCancelled link.token with
  | true =>
    have hstep : link.connection.step .cancelTask =
        some (workload.connection link, Connection.silent) := by
      rw [Workload.connection, hcancelled]
      rfl
    exact hsound.step hstep
  | false =>
    have hbefore : link.connection.cancelled = false := by
      refine Bool.eq_false_iff.mpr fun hconnection => ?_
      rw [hsettled.cancelled (.inl hconnection)] at hcancelled
      cases hcancelled
    have hsame : workload.connection link = link.connection := by
      rw [Workload.connection, hcancelled, ← hbefore]
    rwa [hsame]

theorem Link.Settled.moved {link : Link} (hsettled : link.Settled workload) {index : Nat}
    {move : Connection.Move} {next : Connection} {effect : Connection.Effect}
    (hstep : (workload.connection link).step move = some (next, effect)) :
    Link.Settled (workload.moved index link next) { link with connection := next } := by
  obtain ⟨options, hsound⟩ := hsettled.connection
  exact ⟨⟨options, hsound.step hstep⟩, fun hstopped =>
    isCancelled_cancelIf (hstopped.imp_right fun hdropped => hsettled.cancelled (.inr hdropped))⟩

theorem Link.Settled.drop {link : Link} (hsettled : link.Settled workload) (index : Nat) :
    Link.Settled (workload.drop index link) { link with dropped := true } := by
  refine ⟨hsettled.sound, fun _ => isCancelled_cancelIf ?_⟩
  cases hclosed : link.connection.closed with
  | true => exact .inr (hsettled.cancelled (.inl (hsettled.stopsReading.cancelled_of_closed hclosed)))
  | false => exact .inl rfl

/-- Every move leaves a workload settled. -/
theorem Settled.step (hsettled : Settled workload) (hplanted : workload.tree.Planted)
    (htransition : Transition workload move next) : Settled next := by
  -- What a move leaves alone stays settled, as no cancellation is taken back.
  have hjobs : ∀ job ∈ workload.jobs, Job.Settled next job := fun job hjob hstopped =>
    htransition.isCancelled_mono (hsettled.jobs job hjob hstopped)
  have hlinks : ∀ link ∈ workload.links, Link.Settled next link := fun link hlink =>
    ⟨(hsettled.links link hlink).sound, fun hstopped =>
      htransition.isCancelled_mono ((hsettled.links link hlink).cancelled hstopped)⟩
  cases htransition with
  | enroll | cancelCaller | cancelTask | unreachable => exact ⟨hjobs, hlinks⟩
  | execute _ task => exact ⟨forall_mem_concat hjobs (settled_execute _ task _ _), hlinks⟩
  | stop | ready =>
    exact ⟨forall_mem_set hjobs fun _ => isCancelled_cancel _ _, hlinks⟩
  | pass _ _ hlook =>
    refine ⟨forall_mem_set hjobs fun hstopped => ?_, hlinks⟩
    rw [Stage.isStopped, Guarded.cancelled_eq_false_of_look hlook] at hstopped
    cases hstopped
  | pending hjob hstage =>
    exact ⟨forall_mem_set hjobs (settled_pending hplanted hjob hstage
      (hsettled.jobs _ (List.mem_of_getElem? hjob)) rfl), hlinks⟩
  | connect _ hconnect =>
    exact ⟨hjobs, forall_mem_concat hlinks (settled_of_connect hconnect _ _)⟩
  | act hlink _ hstep =>
    exact ⟨hjobs, forall_mem_set hlinks ((hsettled.links _ (List.mem_of_getElem? hlink)).moved hstep)⟩
  | drop hlink =>
    exact ⟨hjobs, forall_mem_set hlinks ((hsettled.links _ (List.mem_of_getElem? hlink)).drop _)⟩

end CheckHarness.Workload
