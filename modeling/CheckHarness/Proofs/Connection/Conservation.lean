import CheckHarness.Proofs.Connection.Soundness

namespace CheckHarness

/-- What a pending call has taken out of the pipe. -/
def Call.taken : Call → Bytes
  | .receiving pending => pending.taken
  | _ => []

theorem Command.taken_of_call? {command : Command} {call : Call}
    (hcall : command.call? = some call) : call.taken = [] := by
  cases command with
  | send data =>
    cases hcall
    rfl
  | receive receive =>
    cases receive with
    | exact n =>
      cases hcall
      rfl
    | «until» delimiter =>
      obtain ⟨scanner, -, rfl⟩ := Option.map_eq_some_iff.mp hcall
      rfl
  | _ => cases hcall

namespace Connection

/-- The bytes that a move returns to the caller. Only receives return any: every other call that
succeeds returns none. -/
def Effect.received (effect : Effect) : Bytes :=
  match effect.result with
  | some (.ok data) => data
  | _ => []

@[simp]
theorem received_returns_ok (data : Bytes) : (returns (.ok data)).received = data :=
  rfl

@[simp]
theorem received_returns_error (failure : Failure Fault) :
    (returns (.error failure)).received = [] :=
  rfl

@[simp]
theorem received_silent : silent.received = [] :=
  rfl

@[simp]
theorem received_of_no_result (events : List Log.Event) :
    (Effect.mk none events).received = [] :=
  rfl

@[simp]
theorem received_fail (connection : Connection) (call : Call) (failure : CallFailure) :
    (connection.fail call failure).2.received = [] :=
  rfl

/-- The bytes returned in a run, in the order of the calls. -/
def received (effects : List Effect) : Bytes :=
  effects.flatMap Effect.received

/-- What the pending call has taken out of the pipe. -/
def taken (connection : Connection) : Bytes :=
  connection.call.elim [] Call.taken

/-- How the bytes returned so far relate to the peer's stream. -/
structure Conserves (stream returned : Bytes) (connection : Connection) : Prop where
  returned_prefix : returned <+: stream
  whole : connection.failed = false →
    returned ++ connection.taken ++ connection.source.ahead = stream

namespace Conserves

variable {stream returned : Bytes} {connection next : Connection}

/-- The account is even at the start. -/
theorem of_connect {options : ConnectOptions}
    (hconnect : connect options (.accepted stream) = .ok connection) :
    Conserves stream [] connection := by
  obtain ⟨-, rfl⟩ := connect_accepted_eq_ok_iff.mp hconnect
  exact ⟨List.nil_prefix, fun _ => rfl⟩

/-- A move that returns nothing and leaves the rest of the stream where it was. -/
theorem unmoved (hconserves : Conserves stream returned connection)
    (hfailed : next.failed = connection.failed)
    (hahead : next.taken ++ next.source.ahead = connection.taken ++ connection.source.ahead) :
    Conserves stream returned next where
  returned_prefix := hconserves.returned_prefix
  whole := by
    intro hnext
    have hwhole := hconserves.whole (by rwa [hfailed] at hnext)
    rwa [List.append_assoc, hahead, ← List.append_assoc]

/-- After a failure only what was returned before counts. -/
theorem of_failed (hconserves : Conserves stream returned connection)
    (hfailed : next.failed = true) : Conserves stream returned next where
  returned_prefix := hconserves.returned_prefix
  whole := by simp [hfailed]

/-- A receive that ends returns what comes next in the stream. -/
theorem receives {receiving : Receiving} {data : Bytes} {pipe : Pipe}
    (hconserves : Conserves stream returned connection) (husable : connection.failed = false)
    (hcall : connection.call = some (.receiving receiving))
    (htransition : Receiving.Transition connection.source.pipe receiving (.done data pipe)) :
    Conserves stream (returned ++ data)
      { connection with source := { connection.source with pipe }, call := none } := by
  have hwhole : returned ++ data ++ (pipe.buffer ++ connection.source.fill.held ++
      connection.source.unread) = stream := by
    rw [← hconserves.whole husable]
    have hdata := htransition.data_append_buffer
    simp only [taken, hcall, Option.elim_some, Call.taken, Fill.State.ahead, ← List.append_assoc]
    rw [List.append_assoc returned data, hdata]
    simp only [List.append_assoc]
  exact ⟨⟨_, hwhole⟩, fun _ => by simpa [taken, Fill.State.ahead] using hwhole⟩

/-- Every move that does not abandon a call keeps account of the stream. -/
theorem transition {options : ConnectOptions} {move : Move} {effect : Effect}
    (hconserves : Conserves stream returned connection) (hsound : Sound options connection)
    (htransition : Transition connection move next effect) (hawaited : move ≠ .abandon) :
    Conserves stream (returned ++ effect.received) next := by
  -- Only a receive that ends returns bytes; in the other cases they stay or change their place.
  cases htransition with
  | received hcall htransition =>
    exact hconserves.receives (hsound.not_failed_of_call hcall) hcall htransition
  | fill htransition =>
    simp only [received_of_no_result, List.append_nil]
    exact hconserves.unmoved rfl (congrArg (connection.taken ++ ·) htransition.ahead_eq)
  | receive hcall htransition =>
    simp only [received_silent, List.append_nil]
    refine hconserves.unmoved rfl ?_
    have htaken := htransition.taken_append_buffer
    simp only [taken, hcall, Option.elim_some, Call.taken, Fill.State.ahead, ← List.append_assoc,
      htaken]
  | startCancelled | broken | fails =>
    simp only [received_fail, List.append_nil]
    exact hconserves.of_failed rfl
  | start hidle hcall _ _ _ =>
    simp only [received_silent, List.append_nil]
    refine hconserves.unmoved rfl ?_
    simp [taken, hidle, Command.taken_of_call? hcall]
  | accept hcall _ _ =>
    simp only [received_silent, List.append_nil]
    exact hconserves.unmoved rfl (by simp [taken, hcall, Call.taken])
  | sent hcall | closed hcall =>
    simp only [received_returns_ok, List.append_nil]
    exact hconserves.unmoved rfl (by simp [taken, hcall, Call.taken, Fill.State.ahead, Pipe.complete])
  | close hidle _ =>
    simp only [received_silent, List.append_nil]
    exact hconserves.unmoved rfl (by simp [taken, hidle, Call.taken])
  | refuse | crash =>
    simp only [offline, received_returns_error, List.append_nil]
    exact hconserves
  | noDelimiter | closeAgain | setMessage | cancelTask =>
    simp only [received_returns_error, received_returns_ok, received_silent, List.append_nil]
    exact hconserves.unmoved rfl rfl
  | abandon => exact absurd rfl hawaited

theorem of_run {options : ConnectOptions} {moves : List Move} {effects : List Effect}
    (hconserves : Conserves stream returned connection) (hsound : Sound options connection)
    (hawaited : .abandon ∉ moves) (hrun : connection.run moves = some (next, effects)) :
    Conserves stream (returned ++ received effects) next := by
  induction moves generalizing connection returned effects with
  | nil =>
    cases hrun
    simpa [received] using hconserves
  | cons move moves ih =>
    obtain ⟨middle, effect, later, hstep, hlast, rfl⟩ := run_cons_eq_some hrun
    simp only [List.mem_cons, not_or] at hawaited
    have hmiddle := hconserves.transition hsound (transition_of_step hstep) (Ne.symm hawaited.1)
    have hnext := ih hmiddle (hsound.step hstep) hawaited.2 hlast
    simpa [received, List.append_assoc] using hnext

end Conserves

/-- A failed connection returns nothing in any move, and stays failed. -/
theorem failed_step {options : ConnectOptions} {connection next : Connection} {move : Move}
    {effect : Effect} (hsound : Sound options connection) (hfailed : connection.failed = true)
    (hstep : connection.step move = some (next, effect)) :
    effect.received = [] ∧ next.failed = true := by
  cases transition_of_step hstep with
  | received hcall _ =>
    simp [hsound.not_failed_of_call hcall] at hfailed
  | startCancelled | broken | fails => exact ⟨rfl, rfl⟩
  | _ => exact ⟨rfl, hfailed⟩

/-- Nothing is received after a failure. -/
theorem received_eq_nil_of_failed {options : ConnectOptions} {connection last : Connection}
    {moves : List Move} {effects : List Effect} (hsound : Sound options connection)
    (hfailed : connection.failed = true) (hrun : connection.run moves = some (last, effects)) :
    received effects = [] := by
  induction moves generalizing connection effects with
  | nil =>
    cases hrun
    rfl
  | cons move moves ih =>
    obtain ⟨middle, effect, later, hstep, hlast, rfl⟩ := run_cons_eq_some hrun
    obtain ⟨heffect, hmiddle⟩ := failed_step hsound hfailed hstep
    have hlater := ih (hsound.step hstep) hmiddle hlast
    simp only [received] at hlater
    simp [received, heffect, hlater]

/-- A pending call that does not succeed leaves the connection failed. -/
theorem failed_of_error {connection next : Connection} {move : Move} {effect : Effect}
    {failure : Failure Fault} (hpending : connection.call ≠ none)
    (hstep : connection.step move = some (next, effect))
    (herror : effect.result = some (.error failure)) : next.failed = true := by
  cases transition_of_step hstep with
  | broken | fails => rfl
  | startCancelled hidle | refuse hidle | noDelimiter hidle | crash hidle =>
    exact absurd hidle hpending
  | _ => cases herror

/-- A connection fails only in a move that returns a fault. -/
theorem error_of_failed_step {connection next : Connection} {move : Move} {effect : Effect}
    (hstep : connection.step move = some (next, effect)) (hfailed : next.failed = true) :
    connection.failed = true ∨ ∃ fault, effect.result = some (.error (.fault fault)) := by
  cases transition_of_step hstep with
  | startCancelled | broken | fails => exact .inr ⟨_, rfl⟩
  | _ => exact .inl hfailed

/-- A failed connection has told of a fault. -/
theorem exists_error_of_failed {connection last : Connection} {moves : List Move}
    {effects : List Effect} (hrun : connection.run moves = some (last, effects))
    (hfailed : last.failed = true) :
    connection.failed = true ∨
      ∃ effect ∈ effects, ∃ fault, effect.result = some (.error (.fault fault)) := by
  induction moves generalizing connection effects with
  | nil =>
    cases hrun
    exact .inl hfailed
  | cons move moves ih =>
    obtain ⟨middle, effect, later, hstep, hlast, rfl⟩ := run_cons_eq_some hrun
    rcases ih hlast with hmiddle | ⟨found, hmem, herror⟩
    · rcases error_of_failed_step hstep hmiddle with hfirst | herror
      · exact .inl hfirst
      · exact .inr ⟨effect, List.mem_cons_self, herror⟩
    · exact .inr ⟨found, List.mem_cons_of_mem effect hmem, herror⟩

/-- In every run in which no call is abandoned, the bytes returned are a prefix of the peer's
stream. As long as the connection has not failed and no call is pending, they make up the stream
together with what is buffered, held by the fill loop and unread. When a pending call does not
succeed, no later call returns any byte, so none that follows a gap; and a connection that has
failed has told so. -/
theorem received_prefix_stream {options : ConnectOptions} {stream : Bytes} {start : Connection}
    {moves : List Move} {connection : Connection} {effects : List Effect}
    (hconnect : connect options (.accepted stream) = .ok start)
    (hrun : start.run moves = some (connection, effects)) (hawaited : .abandon ∉ moves) :
    received effects <+: stream ∧
      (connection.failed = false → connection.call = none →
        received effects ++ connection.source.pipe.buffer ++ connection.source.fill.held ++
          connection.source.unread = stream) ∧
      (∀ move next effect failure, connection.call ≠ none →
        connection.step move = some (next, effect) → effect.result = some (.error failure) →
          ∀ later last after, next.run later = some (last, after) → received after = []) ∧
      (connection.failed = true →
        ∃ effect ∈ effects, ∃ fault, effect.result = some (.error (.fault fault))) := by
  have hsound := Sound.of_run hconnect hrun
  have hconserves := (Conserves.of_connect hconnect).of_run (.of_connect hconnect) hawaited hrun
  rw [List.nil_append] at hconserves
  refine ⟨hconserves.returned_prefix, ?_, ?_, ?_⟩
  · intro husable hidle
    have hwhole := hconserves.whole husable
    simpa [taken, hidle, Fill.State.ahead] using hwhole
  · intro move next effect failure hpending hstep herror later last after hlater
    exact received_eq_nil_of_failed (hsound.step hstep) (failed_of_error hpending hstep herror) hlater
  · intro hfailed
    obtain ⟨-, rfl⟩ := connect_accepted_eq_ok_iff.mp hconnect
    rcases exists_error_of_failed hrun hfailed with hfresh | herror
    · cases hfresh
    · exact herror

/-- A receive of three bytes takes two and runs into its time limit. When the next receive begins,
the bytes that follow are buffered. -/
def expiredReceive : List Move :=
  [.fill .proceed, .fill .proceed, .fill (.deliver 2), .fill .proceed, .start (.receive (.exact 3)),
    .advance, .advance, .advance, .advance, .advance, .advance, .expire, .fill .proceed,
    .fill (.deliver 2), .fill .proceed, .start (.receive (.exact 1))]

/-- A receive that expires after it has taken bytes returns none of them. -/
theorem received_prefix_stream_expired :
    ∃ start connection effects,
      connect ⟨.zero, 4, 2, some .zero, ""⟩ (.accepted [1, 2, 3, 4]) = .ok start ∧
      start.run expiredReceive = some (connection, effects) ∧
      .abandon ∉ expiredReceive ∧ connection.source.pipe.buffer = [3, 4] ∧
      received effects = [] ∧ received effects <+: [1, 2, 3, 4] := by
  obtain ⟨start, ⟨connection, effects⟩, hconnect, hrun, hbuffer, hreceived⟩ : ∃ start result,
      connect ⟨.zero, 4, 2, some .zero, ""⟩ (.accepted [1, 2, 3, 4]) = .ok start ∧
        start.run expiredReceive = some result ∧ result.1.source.pipe.buffer = [3, 4] ∧
        received result.2 = [] :=
    ⟨_, _, rfl, rfl, rfl, rfl⟩
  exact ⟨start, connection, effects, hconnect, hrun, by decide, hbuffer, hreceived,
    (received_prefix_stream hconnect hrun (by decide)).1⟩

end Connection

end CheckHarness
