import CheckHarness.Proofs.Connection.Moves

namespace CheckHarness

theorem ConnectOptions.capacity_pos (options : ConnectOptions) : 0 < options.capacity := by
  unfold ConnectOptions.capacity
  omega

theorem ConnectOptions.chunk_pos (options : ConnectOptions) : 0 < options.chunk := by
  unfold ConnectOptions.chunk
  omega

namespace Connection

theorem usable_iff {connection : Connection} :
    connection.usable = true ↔ connection.closed = false ∧ connection.failed = false := by
  simp only [usable, Bool.and_eq_true, Bool.not_eq_true']

/-- A connection is made to every peer that accepts, if there is room for its pipe. -/
theorem connect_accepted_eq_ok_iff {options : ConnectOptions} {stream : Bytes}
    {start : Connection} :
    connect options (.accepted stream) = .ok start ↔
      options.capacity < Bytes.roomBound ∧
        start = fresh options (.empty options.capacity) stream := by
  simp only [connect, Pipe.ofCapacity?]
  by_cases hcapacity : options.capacity < Bytes.roomBound
  · simp [hcapacity, eq_comm]
  · simp [hcapacity]

/-- A connection that takes no more calls is cancelled, so the fill loop stops. Only a closed one is
closing, and the pipe is completed by the fill loop or, once it is cancelled, by a close. -/
structure StopsReading (connection : Connection) : Prop where
  cancelled : connection.usable = false → connection.cancelled = true
  closing : connection.call = some .closing → connection.closed = true
  completed : connection.source.pipe.completed = true →
    connection.source.fill = .ended ∨ connection.cancelled = true

namespace StopsReading

variable {connection next : Connection}

theorem cancelled_of_closed (hstops : connection.StopsReading) (hclosed : connection.closed = true) :
    connection.cancelled = true :=
  hstops.cancelled (by simp [usable, hclosed])

theorem fresh (options : ConnectOptions) (capacity : Nat) (stream : Bytes) :
    (Connection.fresh options (.empty capacity) stream).StopsReading :=
  ⟨nofun, nofun, nofun⟩

/-- The fill loop of a closed connection stops, whatever happens. -/
theorem transition {move : Move} {effect : Effect} (hstops : connection.StopsReading)
    (hphased : Fill.Phased connection.chunk connection.source)
    (htransition : Transition connection move next effect) : next.StopsReading := by
  obtain ⟨hcancelled, hclosing, hcompleted⟩ := hstops
  cases htransition with
  | fill htransition =>
    refine ⟨hcancelled, hclosing, fun hnext => ?_⟩
    rcases htransition.completed_eq_or_ended with hsame | hended
    · have hstopped := hphased.stopped (hsame ▸ hnext)
      simp [htransition.stopped_eq_false] at hstopped
    · exact .inl hended
  | startCancelled | broken | fails => exact ⟨fun _ => rfl, by simp [fail], fun _ => .inr rfl⟩
  | close => exact ⟨fun _ => rfl, fun _ => rfl, fun _ => .inr rfl⟩
  | cancelTask => exact ⟨fun _ => rfl, hclosing, fun _ => .inr rfl⟩
  | start _ hcall _ _ _ =>
    refine ⟨hcancelled, ?_, hcompleted⟩
    rintro ⟨rfl⟩
    exact absurd rfl (Command.ne_closing_of_call? hcall)
  -- A close that returns has cancelled the token when it began.
  | closed hcall _ =>
    exact ⟨hcancelled, by simp, fun _ => .inr (hcancelled (by simp [usable, hclosing hcall]))⟩
  | receive _ htransition =>
    have hsame := htransition.drains_of_continues.completed
    exact ⟨hcancelled, by simp, fun hnext => hcompleted (hsame ▸ hnext)⟩
  | received _ htransition =>
    have hsame := htransition.drains_of_done.completed
    exact ⟨hcancelled, by simp, fun hnext => hcompleted (hsame ▸ hnext)⟩
  | sent | accept | abandon => exact ⟨hcancelled, by simp, hcompleted⟩
  | refuse | noDelimiter | setMessage | closeAgain | crash =>
    exact ⟨hcancelled, hclosing, hcompleted⟩

end StopsReading

structure Sound (options : ConnectOptions) (connection : Connection) : Prop where
  chunk : connection.chunk = options.chunk
  capacity : connection.source.pipe.capacity = options.capacity
  source : Fill.Sound connection.chunk connection.source
  receiving : ∀ receiving, connection.call = some (.receiving receiving) →
    receiving.Sound connection.source.pipe
  pending : ∀ call, connection.call = some call → call ≠ .closing → connection.usable = true
  stops : connection.StopsReading

namespace Sound

variable {options : ConnectOptions} {connection next : Connection}

theorem fresh (options : ConnectOptions) (stream : Bytes) :
    Sound options (Connection.fresh options (.empty options.capacity) stream) where
  chunk := rfl
  capacity := rfl
  source := .start options.capacity_pos stream
  receiving := by
    intro _ hcall
    cases hcall
  pending := by
    intro _ hcall
    cases hcall
  stops := .fresh options options.capacity stream

/-- Every connection that is made is sound. -/
theorem of_connect {stream : Bytes} (hconnect : connect options (.accepted stream) = .ok connection) :
    Sound options connection := by
  obtain ⟨-, rfl⟩ := connect_accepted_eq_ok_iff.mp hconnect
  exact fresh options stream

theorem chunk_pos (hsound : Sound options connection) : 0 < connection.chunk := by
  rw [hsound.chunk]
  exact options.chunk_pos

/-- A receive is pending only on a connection that has not failed. -/
theorem not_failed_of_call (hsound : Sound options connection) {receiving : Receiving}
    (hcall : connection.call = some (.receiving receiving)) : connection.failed = false :=
  (usable_iff.mp (hsound.pending _ hcall (by simp))).2

/-- Without a call there is nothing to know about one. -/
theorem idle (hsound : Sound options connection) (hchunk : next.chunk = connection.chunk)
    (hsource : next.source = connection.source) (hcall : next.call = none)
    (hstops : next.StopsReading) :
    Sound options next where
  chunk := hchunk.trans hsound.chunk
  capacity := by rw [hsource, hsound.capacity]
  source := by
    rw [hchunk, hsource]
    exact hsound.source
  receiving := by simp [hcall]
  pending := by simp [hcall]
  stops := hstops

/-- A receive that has not looked at the pipe yet knows nothing about it. -/
theorem receiving_of_call? {command : Command} {receiving : Receiving}
    (hcall : command.call? = some (.receiving receiving)) (pipe : Pipe) :
    receiving.Sound pipe := by
  cases command with
  | receive receive =>
    cases receive with
    | exact n =>
      cases hcall
      exact ⟨Nat.zero_le n, by simp [Receiving.stage]⟩
    | «until» delimiter =>
      simp only [Command.call?, Option.map_eq_some_iff, Scanner.ofDelimiter?] at hcall
      obtain ⟨scanner, hscanner, hreceiving⟩ := hcall
      cases hreceiving
      split at hscanner
      · cases hscanner
      · cases hscanner
        exact ⟨Scanner.missed_of_scanned_eq_zero rfl _, by simp [Receiving.stage]⟩
  | _ => cases hcall

/-- A call that takes from the pipe keeps the connection sound. -/
theorem drains (hsound : Sound options connection) {pipe : Pipe}
    (hdrains : connection.source.pipe.Drains pipe) {call : Option Call}
    (hreceiving : ∀ receiving, call = some (.receiving receiving) → receiving.Sound pipe)
    (hpending : ∀ pending, call = some pending → pending ≠ .closing → connection.usable = true)
    (hstops : StopsReading { connection with source := { connection.source with pipe }, call }) :
    Sound options { connection with source := { connection.source with pipe }, call } where
  chunk := hsound.chunk
  capacity := hdrains.capacity.trans hsound.capacity
  source := hsound.source.drains hdrains
  receiving := hreceiving
  pending := hpending
  stops := hstops

theorem transition {move : Move} {effect : Effect} (hsound : Sound options connection)
    (htransition : Transition connection move next effect) : Sound options next := by
  have hstops := hsound.stops.transition hsound.source.phased htransition
  cases htransition with
  | fill htransition =>
    have hextends := htransition.pipe_extends
    exact {
      chunk := hsound.chunk
      capacity := hextends.capacity.trans hsound.capacity
      source := hsound.source.transition hsound.chunk_pos htransition
      receiving := fun receiving hcall => (hsound.receiving receiving hcall).extends hextends
      pending := hsound.pending
      stops := hstops }
  | refuse | noDelimiter | closeAgain | crash => exact hsound
  | startCancelled | sent | broken | fails | abandon => exact hsound.idle rfl rfl rfl hstops
  | setMessage hidle => exact hsound.idle rfl rfl hidle hstops
  | start hidle hcall husable hcancelled _ =>
    refine ⟨hsound.chunk, hsound.capacity, hsound.source, ?_, fun _ _ _ => husable, hstops⟩
    intro receiving hreceiving
    cases hreceiving
    exact receiving_of_call? hcall _
  | close hidle hopen =>
    refine ⟨hsound.chunk, hsound.capacity, hsound.source, by simp, ?_, hstops⟩
    rintro call ⟨rfl⟩ hclosing
    exact absurd rfl hclosing
  | receive hcall htransition =>
    have hreceiving := hsound.receiving _ hcall
    refine hsound.drains htransition.drains_of_continues ?_ ?_ hstops
    · rintro receiving ⟨rfl⟩
      exact htransition.sound hreceiving
    · rintro pending - -
      exact hsound.pending _ hcall (by simp)
  | received hcall htransition =>
    exact hsound.drains htransition.drains_of_done (by simp) (by simp) hstops
  | closed hcall hstopped =>
    exact ⟨hsound.chunk, hsound.capacity, hsound.source.complete hstopped, by simp, by simp,
      hstops⟩
  | accept hcall hn hrest =>
    refine ⟨hsound.chunk, hsound.capacity, hsound.source, by simp, ?_, hstops⟩
    rintro call ⟨rfl⟩ -
    exact hsound.pending _ hcall (by simp)
  | cancelTask =>
    exact ⟨hsound.chunk, hsound.capacity, hsound.source, hsound.receiving, hsound.pending, hstops⟩

theorem step {move : Move} {effect : Effect} (hsound : Sound options connection)
    (hstep : connection.step move = some (next, effect)) : Sound options next :=
  hsound.transition (transition_of_step hstep)

/-- A connection is sound at any time. -/
theorem of_run {start : Connection} {moves : List Move} {effects : List Effect} {stream : Bytes}
    (hconnect : connect options (.accepted stream) = .ok start)
    (hrun : start.run moves = some (connection, effects)) : Sound options connection :=
  run_preserves step hrun (of_connect hconnect)

end Sound

end Connection

end CheckHarness
