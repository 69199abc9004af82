import CheckHarness.Proofs.Connection.Conservation

namespace CheckHarness

namespace Connection

/-- What is dropped with an abandoned call. -/
def dropped (connection : Connection) : Move → Bytes
  | .abandon => connection.taken
  | _ => []

/-- The bytes that are dropped in a run. -/
def losses (connection : Connection) : List Move → Bytes
  | [] => []
  | move :: moves =>
    (connection.step move).elim [] fun result => connection.dropped move ++ result.1.losses moves

/-- The bytes that leave a connection in a run, in order: those returned and those dropped. -/
def departures (connection : Connection) : List Move → Bytes
  | [] => []
  | move :: moves =>
    (connection.step move).elim [] fun result =>
      result.2.received ++ connection.dropped move ++ result.1.departures moves

section

variable {connection next last : Connection} {move : Move} {moves : List Move} {effect : Effect}
  {effects : List Effect}

theorem losses_cons (hstep : connection.step move = some (next, effect)) :
    connection.losses (move :: moves) = connection.dropped move ++ next.losses moves := by
  simp [losses, hstep]

theorem departures_cons (hstep : connection.step move = some (next, effect)) :
    connection.departures (move :: moves) =
      effect.received ++ connection.dropped move ++ next.departures moves := by
  simp [departures, hstep]

theorem received_cons : received (effect :: effects) = effect.received ++ received effects :=
  rfl

theorem dropped_of_ne_abandon (hawaited : move ≠ .abandon) : connection.dropped move = [] := by
  cases move with
  | abandon => exact absurd rfl hawaited
  | _ => rfl

/-- What is returned leaves in the order in which it is returned. -/
theorem received_sublist_departures (hrun : connection.run moves = some (last, effects)) :
    (received effects).Sublist (connection.departures moves) := by
  induction moves generalizing connection effects with
  | nil =>
    cases hrun
    exact .refl _
  | cons move moves ih =>
    obtain ⟨next, effect, later, hstep, hlast, rfl⟩ := run_cons_eq_some hrun
    rw [departures_cons hstep, received_cons]
    exact (List.sublist_append_left _ _).append (ih hlast)

/-- What leaves is returned or dropped. -/
theorem length_departures (hrun : connection.run moves = some (last, effects)) :
    (connection.departures moves).length =
      (received effects).length + (connection.losses moves).length := by
  induction moves generalizing connection effects with
  | nil =>
    cases hrun
    rfl
  | cons move moves ih =>
    obtain ⟨next, effect, later, hstep, hlast, rfl⟩ := run_cons_eq_some hrun
    have hlater := ih hlast
    simp only [departures_cons hstep, losses_cons hstep, received_cons, List.length_append, hlater]
    omega

/-- If nothing is dropped, only what is returned leaves. -/
theorem received_eq_departures (hrun : connection.run moves = some (last, effects))
    (hkept : connection.losses moves = []) : received effects = connection.departures moves := by
  refine (received_sublist_departures hrun).eq_of_length ?_
  rw [length_departures hrun, hkept, List.length_nil, Nat.add_zero]

/-- A pending receive may be dropped just while it waits for a permit. -/
theorem step_abandon_of_receiving {receiving : Receiving}
    (hcall : connection.call = some (.receiving receiving)) :
    connection.step .abandon =
      if receiving.stage = .parked then some ({ connection with call := none }, silent)
      else none := by
  simp [step, hcall, rests, watches]

end

/-- A failed connection holds no bytes for a receive. -/
theorem Sound.taken_of_failed {options : ConnectOptions} {connection : Connection}
    (hsound : Sound options connection) (hfailed : connection.failed = true) :
    connection.taken = [] := by
  cases hcall : connection.call with
  | none => simp [taken, hcall]
  | some call =>
    cases call with
    | receiving receiving => simp [hsound.not_failed_of_call hcall] at hfailed
    | sending | closing => simp [taken, hcall, Call.taken]

namespace Conserves

variable {options : ConnectOptions} {stream gone : Bytes} {connection next : Connection}

/-- What an abandoned call had taken comes next in the stream. -/
theorem abandons (hconserves : Conserves stream gone connection)
    (hsound : Sound options connection) :
    Conserves stream (gone ++ connection.taken) { connection with call := none } := by
  by_cases hfailed : connection.failed = true
  · rw [hsound.taken_of_failed hfailed, List.append_nil]
    exact hconserves.of_failed hfailed
  · have hwhole := hconserves.whole (by simpa using hfailed)
    exact ⟨⟨_, hwhole⟩, fun _ => by simpa [taken] using hwhole⟩

/-- A move may drop bytes, but it keeps account of them. -/
theorem departs {move : Move} {effect : Effect} (hconserves : Conserves stream gone connection)
    (hsound : Sound options connection) (hstep : connection.step move = some (next, effect)) :
    Conserves stream (gone ++ (effect.received ++ connection.dropped move)) next := by
  by_cases hmove : move = .abandon
  · subst hmove
    cases transition_of_step hstep with
    | abandon hcall hrests => exact hconserves.abandons hsound
    | fails _ _ hmove => simp at hmove
  · rw [dropped_of_ne_abandon hmove, List.append_nil]
    exact hconserves.transition hsound (transition_of_step hstep) hmove

theorem of_departures {moves : List Move} {effects : List Effect}
    (hconserves : Conserves stream gone connection) (hsound : Sound options connection)
    (hrun : connection.run moves = some (next, effects)) :
    Conserves stream (gone ++ connection.departures moves) next := by
  induction moves generalizing connection gone effects with
  | nil =>
    cases hrun
    simpa [departures] using hconserves
  | cons move moves ih =>
    obtain ⟨middle, effect, later, hstep, hlast, rfl⟩ := run_cons_eq_some hrun
    rw [departures_cons hstep, ← List.append_assoc]
    exact ih (hconserves.departs hsound hstep) (hsound.step hstep) hlast

end Conserves

/-- In every run, with calls abandoned or not, the bytes returned and the bytes dropped with
abandoned calls are a prefix of the peer's stream together, in the order in which they left the
pipe; while the connection has not failed, what the pending call has taken and what is still ahead
make up the rest. So the bytes returned are a prefix of the stream if no abandoned call had taken
any.

A pending receive can be abandoned just while it waits. That leaves the connection as usable as it
was and the buffer as the receive left it, and drops all that the receive had taken: nothing for a
receive up to a delimiter, the bytes received so far, short of the number asked for, for one of a
number of bytes. -/
theorem departures_prefix_stream {options : ConnectOptions} {stream : Bytes} {start : Connection}
    {moves : List Move} {connection : Connection} {effects : List Effect}
    (hconnect : connect options (.accepted stream) = .ok start)
    (hrun : start.run moves = some (connection, effects)) :
    start.departures moves <+: stream ∧
      (received effects).Sublist (start.departures moves) ∧
      (start.departures moves).length =
        (received effects).length + (start.losses moves).length ∧
      (connection.failed = false →
        start.departures moves ++ connection.taken ++ connection.source.ahead = stream) ∧
      (start.losses moves = [] → received effects <+: stream) ∧
      ∀ receiving, connection.call = some (.receiving receiving) →
        (connection.step .abandon =
          if receiving.stage = .parked then some ({ connection with call := none }, silent)
          else none) ∧
        connection.usable = true ∧ connection.dropped .abandon = receiving.taken ∧
        (∀ scanner stage, receiving = .until scanner stage → receiving.taken = []) ∧
        ∀ n bytes, receiving = .exact n bytes .parked →
          connection.source.pipe.readable = false →
            bytes.length < n ∧ connection.source.pipe.buffer = [] := by
  have hsound := Sound.of_run hconnect hrun
  have hconserves := (Conserves.of_connect hconnect).of_departures (.of_connect hconnect) hrun
  rw [List.nil_append] at hconserves
  refine ⟨hconserves.returned_prefix, received_sublist_departures hrun, length_departures hrun,
    hconserves.whole, ?_, ?_⟩
  · intro hkept
    rw [received_eq_departures hrun hkept]
    exact hconserves.returned_prefix
  · intro receiving hcall
    refine ⟨step_abandon_of_receiving hcall, hsound.pending _ hcall (by simp), ?_, ?_, ?_⟩
    · cases receiving <;> simp [dropped, taken, hcall, Call.taken, Receiving.taken]
    · rintro scanner stage rfl
      rfl
    · rintro n bytes rfl hpermit
      obtain ⟨hshort, hbuffer, -⟩ := (hsound.receiving _ hcall).upToDate (.inr rfl) hpermit
      exact ⟨hshort, hbuffer⟩

/-- A line comes in two reads. The receive that waits for the second one is abandoned, and another
one begins when it is there. -/
def abandonedLine : List Move :=
  [.fill .proceed, .fill .proceed, .fill (.deliver 1), .fill .proceed,
    .start (.receive (.until [10])), .advance, .advance, .advance, .advance, .abandon,
    .fill .proceed, .fill (.deliver 1), .fill .proceed, .start (.receive (.until [10])), .advance,
    .advance]

/-- A run whose abandoned receive had taken nothing yet. -/
theorem departures_prefix_stream_line :
    ∃ start connection effects,
      connect ⟨.zero, 8, 8, none, ""⟩ (.accepted [97, 10, 98]) = .ok start ∧
      start.run abandonedLine = some (connection, effects) ∧
      .abandon ∈ abandonedLine ∧ received effects = [97, 10] ∧
      received effects <+: [97, 10, 98] := by
  obtain ⟨start, ⟨connection, effects⟩, hconnect, hrun, hkept, hreceived⟩ : ∃ start result,
      connect ⟨.zero, 8, 8, none, ""⟩ (.accepted [97, 10, 98]) = .ok start ∧
        start.run abandonedLine = some result ∧ start.losses abandonedLine = [] ∧
        received result.2 = [97, 10] := ⟨_, _, rfl, rfl, rfl, rfl⟩
  have hprefix := (departures_prefix_stream hconnect hrun).2.2.2.2.1 hkept
  exact ⟨start, connection, effects, hconnect, hrun, by decide, hreceived, hprefix⟩

/-- A byte comes while two are asked for, and the receive waits for the other. -/
def startedReceive : List Move :=
  [.fill .proceed, .fill .proceed, .fill (.deliver 1), .fill .proceed,
    .start (.receive (.exact 2)), .advance, .advance, .advance, .advance, .advance, .advance]

/-- The next byte comes, and one is asked for. -/
def followingReceive : List Move :=
  [.fill .proceed, .fill (.deliver 1), .fill .proceed, .start (.receive (.exact 1)), .advance,
    .advance, .advance]

section

variable {options : ConnectOptions}

/-- A connection whose receive of two bytes has taken one. -/
def halfway (options : ConnectOptions) (first : UInt8) (rest : Bytes) : Connection :=
  { fresh options { Pipe.empty options.capacity with writable := true } rest with
    source := ⟨.checking, { Pipe.empty options.capacity with writable := true }, rest⟩
    call := some (.receiving (.exact 2 [first] .parked)) }

/-- A receive of two bytes may come to wait halfway on any connection that reads. -/
theorem run_startedReceive (hfits : options.Fits) (first : UInt8) (rest : Bytes) :
    ∃ start effects, connect options (.accepted (first :: rest)) = .ok start ∧
      start.run startedReceive = some (halfway options first rest, effects) ∧
        received effects = [] := by
  have hread : 1 ≤ min options.capacity options.chunk :=
    Nat.le_min.mpr ⟨options.capacity_pos, options.chunk_pos⟩
  have htwo : ¬ Bytes.roomBound ≤ 2 := by decide
  have hstarted : ∃ effects,
      (fresh options (.empty options.capacity) (first :: rest)).run startedReceive =
        some (halfway options first rest, effects) ∧ received effects = [] := by
    simp [startedReceive, run, step, fresh, halfway, Fill.step, Pipe.empty, Pipe.space,
      options.capacity_pos, hread, hfits.chunk, htwo, Call.room, Pipe.commit, start, begin, usable,
      advance, Receiving.stage, Receiving.step, Receiving.look, Receiving.takeBytes, Pipe.take,
      Receiving.withStage, Pipe.pollReadable, received]
  obtain ⟨effects, hrun, hnothing⟩ := hstarted
  exact ⟨_, effects, connect_accepted_eq_ok_iff.mpr ⟨hfits.capacity, rfl⟩, hrun, hnothing⟩

/-- A receive that is abandoned halfway leaves a usable connection, whose next receive returns what
comes after the byte that was taken. -/
theorem run_followingReceive (options : ConnectOptions) (first second : UInt8) (rest : Bytes) :
    ∃ abandoned connection effects,
      (halfway options first (second :: rest)).step .abandon = some (abandoned, silent) ∧
      abandoned.usable = true ∧ abandoned.run followingReceive = some (connection, effects) ∧
      received effects = [second] := by
  have hread : 1 ≤ min options.capacity options.chunk :=
    Nat.le_min.mpr ⟨options.capacity_pos, options.chunk_pos⟩
  have hone : ¬ Bytes.roomBound ≤ 1 := by decide
  refine ⟨{ halfway options first (second :: rest) with call := none }, ?_⟩
  simp [followingReceive, run, step, fresh, halfway, Fill.step, Pipe.empty, Pipe.space,
    options.capacity_pos, hread, hone, Call.room, Pipe.commit, start, begin, usable, advance,
    Receiving.stage, Receiving.step, Receiving.look, Receiving.takeBytes, Pipe.take, rests, watches,
    received]

end

/-- Of the stream `ab`, the first receive takes `a` and is abandoned, and the next one returns `b`:
the connection has not failed, and what it returned is no prefix of the stream. -/
theorem received_not_prefix_halfway :
    ∃ start before abandoned connection after,
      connect ⟨.zero, 8, 8, none, ""⟩ (.accepted [97, 98]) = .ok start ∧
      start.run startedReceive = some (halfway ⟨.zero, 8, 8, none, ""⟩ 97 [98], before) ∧
      (halfway ⟨.zero, 8, 8, none, ""⟩ 97 [98]).step .abandon = some (abandoned, silent) ∧
      (halfway ⟨.zero, 8, 8, none, ""⟩ 97 [98]).dropped .abandon = [97] ∧
      abandoned.failed = false ∧
      abandoned.run followingReceive = some (connection, after) ∧
      ¬ received (before ++ after) <+: [97, 98] := by
  have hfits : ConnectOptions.Fits ⟨.zero, 8, 8, none, ""⟩ := ⟨by decide, by decide⟩
  obtain ⟨start, before, hconnect, hstarted, hnothing⟩ := run_startedReceive hfits 97 [98]
  obtain ⟨abandoned, connection, after, habandon, husable, hfollowing, hsecond⟩ :=
    run_followingReceive ⟨.zero, 8, 8, none, ""⟩ 97 98 []
  refine ⟨start, before, abandoned, connection, after, hconnect, hstarted, habandon, rfl,
    (usable_iff.mp husable).2, hfollowing, ?_⟩
  have hreceived : received (before ++ after) = [98] := by
    rw [received, List.flatMap_append]
    exact congrArg₂ _ hnothing hsecond
  rw [hreceived]
  decide

end Connection

end CheckHarness
