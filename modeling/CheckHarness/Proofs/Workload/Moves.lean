import CheckHarness.Workload

namespace CheckHarness.Workload

/-- A move that is possible, with what it needs and what it leads to. -/
inductive Transition (workload : Workload) : Move → Workload → Prop where
  | enroll :
    Transition workload .enroll
      { workload with callers := workload.callers ++ [.root workload.callers.length] }
  | cancelCaller {caller : Nat} {token : CancellationToken}
    (hcaller : workload.callers[caller]? = some token) :
    Transition workload (.cancelCaller caller) (workload.cancel token)
  | execute {caller : Nat} {token : CancellationToken}
    (hcaller : workload.callers[caller]? = some token) (task : Task) :
    Transition workload (.execute caller task) (workload.execute caller task token)
  /-- The guard ends the run. -/
  | stop {index now : Nat} {job : Job} {progress : Guarded.Progress} {guarded : Guarded}
    (hjob : workload.jobs[index]? = some job) (hstage : job.stage = .waiting progress)
    (hlook : progress.look job.deadline now (workload.tokens job) = .inl guarded) :
    Transition workload (.look index now) (workload.finish index job guarded)
  /-- The guard lets the operation be polled. -/
  | pass {index now : Nat} {job : Job} {progress next : Guarded.Progress}
    (hjob : workload.jobs[index]? = some job) (hstage : job.stage = .waiting progress)
    (hlook : progress.look job.deadline now (workload.tokens job) = .inr next) :
    Transition workload (.look index now) (workload.setJob index { job with stage := .polled now next })
  /-- The operation ends. -/
  | ready {index now duration : Nat} {events : List Log.Event} {ending : Ending} {job : Job}
    {progress : Guarded.Progress} (hjob : workload.jobs[index]? = some job)
    (hstage : job.stage = .polled now progress) :
    Transition workload (.poll index duration events (some ending))
      (workload.finish index job
        ((progress.polled ⟨workload.tokens job, duration, events, some ending⟩).finish ending
          (now + duration)))
  /-- The operation has not ended yet. -/
  | pending {index now duration : Nat} {events : List Log.Event} {job : Job}
    {progress : Guarded.Progress} (hjob : workload.jobs[index]? = some job)
    (hstage : job.stage = .polled now progress) :
    Transition workload (.poll index duration events none)
      (workload.setJob index { job with
        stage := .waiting (progress.polled ⟨workload.tokens job, duration, events, none⟩) })
  | cancelTask {index : Nat} {job : Job} (hjob : workload.jobs[index]? = some job) :
    Transition workload (.cancelTask index) (workload.cancel job.token)
  | connect {index : Nat} {job : Job} {options : ConnectOptions} {stream : Bytes}
    {connection : Connection} (hjob : workload.jobs[index]? = some job)
    (hconnect : Connection.connect options (.accepted stream) = .ok connection) :
    Transition workload (.connect index options (.accepted stream))
      (workload.link index job connection)
  /-- The attempt to connect makes no connection. -/
  | unreachable {index : Nat} {job : Job} (hjob : workload.jobs[index]? = some job)
    (options : ConnectOptions) (attempt : Connection.Attempt) :
    Transition workload (.connect index options attempt) workload
  | act {index : Nat} {link : Link} {move : Connection.Move} {next : Connection}
    {effect : Connection.Effect} (hlink : workload.links[index]? = some link)
    (hallowed : allows link move = true)
    (hstep : (workload.connection link).step move = some (next, effect)) :
    Transition workload (.act index move) (workload.moved index link next)
  | drop {index : Nat} {link : Link} (hlink : workload.links[index]? = some link)
    (hheld : link.dropped = false) :
    Transition workload (.drop index) (workload.drop index link)

theorem transition_of_step {workload next : Workload} {move : Move}
    (hstep : workload.step move = some next) : Transition workload move next := by
  cases move with
  | enroll =>
    cases hstep
    exact .enroll
  | cancelCaller caller =>
    obtain ⟨token, hcaller, rfl⟩ := Option.map_eq_some_iff.mp hstep
    exact .cancelCaller hcaller
  | execute caller task =>
    obtain ⟨token, hcaller, rfl⟩ := Option.map_eq_some_iff.mp hstep
    exact .execute hcaller task
  | look index now =>
    obtain ⟨job, hjob, hlook⟩ := Option.bind_eq_some_iff.mp hstep
    cases hstage : job.stage with
    | waiting progress =>
      rw [hstage] at hlook
      obtain rfl := Option.some.inj hlook
      cases hresult : progress.look job.deadline now (workload.tokens job) with
      | inl guarded => exact .stop hjob hstage hresult
      | inr next => exact .pass hjob hstage hresult
    | polled | ended =>
      rw [hstage] at hlook
      cases hlook
  | poll index duration events ending =>
    obtain ⟨job, hjob, hpoll⟩ := Option.bind_eq_some_iff.mp hstep
    cases hstage : job.stage with
    | polled now progress =>
      rw [hstage] at hpoll
      obtain rfl := Option.some.inj hpoll
      cases ending with
      | some ending => exact .ready hjob hstage
      | none => exact .pending hjob hstage
    | waiting | ended =>
      rw [hstage] at hpoll
      cases hpoll
  | cancelTask index =>
    obtain ⟨job, hjob, rfl⟩ := Option.map_eq_some_iff.mp hstep
    exact .cancelTask hjob
  | connect index options attempt =>
    obtain ⟨job, hjob, rfl⟩ := Option.map_eq_some_iff.mp hstep
    cases attempt with
    | accepted stream =>
      cases hconnect : Connection.connect options (.accepted stream) with
      | ok connection => exact .connect hjob hconnect
      | error failure => exact .unreachable hjob options _
    | refused | timedOut | cancelled => exact .unreachable hjob options _
  | act index move =>
    obtain ⟨link, hlink, hact⟩ := Option.bind_eq_some_iff.mp hstep
    obtain ⟨hallowed, hmoved⟩ := Option.ite_none_right_eq_some.mp hact
    obtain ⟨⟨next, effect⟩, hnext, rfl⟩ := Option.map_eq_some_iff.mp hmoved
    exact .act hlink hallowed hnext
  | drop index =>
    obtain ⟨link, hlink, hdrop⟩ := Option.bind_eq_some_iff.mp hstep
    obtain ⟨hheld, hdropped⟩ := Option.ite_none_left_eq_some.mp hdrop
    cases hdropped
    exact .drop hlink (by simpa using hheld)

/-- What every move keeps, a run keeps. -/
theorem run_preserves {P : Workload → Prop}
    (hmove : ∀ {workload move next}, P workload → Transition workload move next → P next)
    {workload last : Workload} {moves : List Move} (hrun : workload.run moves = some last)
    (hfirst : P workload) : P last := by
  induction moves generalizing workload with
  | nil =>
    cases hrun
    exact hfirst
  | cons move moves ih =>
    rw [run, List.foldlM_cons] at hrun
    obtain ⟨next, hstep, hlast⟩ := Option.bind_eq_some_iff.mp hrun
    exact ih hlast (hmove hfirst (transition_of_step hstep))

end CheckHarness.Workload
