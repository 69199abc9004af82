import CheckHarness.Proofs.Connection.Capacity
import CheckHarness.Proofs.Connection.Progress

namespace CheckHarness

/-- The command is to send or to receive, and names a delimiter if it needs one. -/
def Command.Transfers : Command → Prop
  | .send _ | .receive (.exact _) => True
  | .receive (.until delimiter) => delimiter ≠ []
  | .setMessage _ | .close => False

theorem Command.transfers_iff {command : Command} :
    command.Transfers ↔ ∃ call, command.call? = some call := by
  cases command with
  | receive receive =>
    cases receive with
    | exact n => simp [Transfers, call?]
    | «until» delimiter =>
      by_cases hdelimiter : delimiter = [] <;>
        simp [Transfers, call?, Scanner.ofDelimiter?, hdelimiter]
  | _ => simp [Transfers, call?]

/-- No other call than a receive of a number of bytes makes room for anything. -/
theorem Command.exists_exact_of_room {command : Command} {call : Call}
    (hcall : command.call? = some call) (hroom : Bytes.roomBound ≤ call.room) :
    ∃ n, command = .receive (.exact n) ∧ Bytes.roomBound ≤ n := by
  cases command with
  | send data =>
    cases hcall
    cases hroom
  | receive receive =>
    cases receive with
    | exact n =>
      cases hcall
      exact ⟨n, rfl, hroom⟩
    | «until» delimiter =>
      obtain ⟨scanner, -, rfl⟩ := Option.map_eq_some_iff.mp hcall
      cases hroom
  | _ => cases hcall

namespace Connection

/-- A send or receive is pending on a usable connection, or the move starts one. -/
structure Transferring (connection : Connection) (move : Move) : Prop where
  usable : connection.usable = true
  call : (∃ command, command.Transfers ∧ move = .start command) ∨
    ∃ call, connection.call = some call ∧ call ≠ .closing

/-- The message of later faults after a move. -/
def messageAfter (message : String) : Move → String
  | .start (.setMessage next) => next
  | _ => message

theorem messageAfter_of_call? {command : Command} {call : Call} (hcall : command.call? = some call)
    (message : String) : messageAfter message (.start command) = message := by
  cases command with
  | setMessage => cases hcall
  | _ => rfl

/-- The message that was set last, or the standard one. -/
def lastMessage (moves : List Move) : String :=
  moves.foldl messageAfter standardMessage

/-- Everything that a connection holds is released: its token is cancelled, the fill loop has ended,
if it did not crash for want of room, and the pipe is completed. -/
structure Released (connection : Connection) : Prop where
  cancelled : connection.cancelled = true
  ended : connection.source.fill = .ended ∨
    (connection.source.fill = .crashed ∧ Bytes.roomBound ≤ connection.chunk)
  completed : connection.source.pipe.completed = true

section Step

variable {options : ConnectOptions} {connection next : Connection} {move : Move} {effect : Effect}

/-- A connection that has failed stays so. -/
theorem failed_step_mono (hstep : connection.step move = some (next, effect))
    (hfailed : connection.failed = true) : next.failed = true := by
  cases transition_of_step hstep with
  | startCancelled | broken | fails => rfl
  | _ => exact hfailed

theorem closed_step_mono (hstep : connection.step move = some (next, effect))
    (hclosed : connection.closed = true) : next.closed = true := by
  cases transition_of_step hstep with
  | close => rfl
  | _ => exact hclosed

/-- A connection fails when a send or receive fails on it, and not otherwise. -/
theorem Sound.failed_step_iff (hsound : Sound options connection)
    (hstep : connection.step move = some (next, effect)) (hfailed : connection.failed = false) :
    next.failed = true ↔
      connection.Transferring move ∧ ∃ fault, effect.result = some (.error (.fault fault)) := by
  cases transition_of_step hstep with
  | startCancelled _ hcall husable _ =>
    exact iff_of_true rfl ⟨⟨husable, .inl ⟨_, Command.transfers_iff.mpr ⟨_, hcall⟩, rfl⟩⟩, _, rfl⟩
  | broken hcall _ =>
    have husable := hsound.pending _ hcall (by simp)
    exact iff_of_true rfl ⟨⟨husable, .inr ⟨_, hcall, by simp⟩⟩, _, rfl⟩
  | fails hcall hpending _ =>
    exact iff_of_true rfl ⟨⟨hsound.pending _ hcall hpending, .inr ⟨_, hcall, hpending⟩⟩, _, rfl⟩
  | refuse _ _ husable =>
    refine iff_of_false (by simp [hfailed]) fun h => ?_
    simp [h.1.usable] at husable
  | noDelimiter hidle =>
    refine iff_of_false (by simp [hfailed]) fun h => ?_
    rcases h.1.call with ⟨command, htransfers, hcommand⟩ | ⟨call, hcall, -⟩
    · cases hcommand
      exact htransfers rfl
    · simp [hidle] at hcall
  | _ =>
    refine iff_of_false (by simp [hfailed]) fun ⟨_, fault, hresult⟩ => ?_
    cases hresult

/-- Only a close closes. -/
theorem closed_step_iff (hstep : connection.step move = some (next, effect))
    (hclosed : connection.closed = false) : next.closed = true ↔ move = .start .close := by
  cases transition_of_step hstep with
  | close => exact iff_of_true rfl rfl
  | closeAgain _ hagain => simp [hagain] at hclosed
  | refuse _ hcall _ | startCancelled _ hcall _ _ | start _ hcall _ _ _ | crash _ hcall _ _ _ =>
    refine iff_of_false (by simp [fail, hclosed]) ?_
    rw [Move.start.injEq]
    rintro rfl
    cases hcall
  | fails _ _ hmove =>
    refine iff_of_false (by simp [fail, hclosed]) ?_
    rintro rfl
    simp at hmove
  | _ => exact iff_of_false (by simp [fail, hclosed]) (by simp)

/-- Every fault but that of a missing delimiter has the connection's message. -/
theorem fault_eq_of_step (hstep : connection.step move = some (next, effect)) {fault : Fault}
    (hresult : effect.result = some (.error (.fault fault)))
    (hmove : move ≠ .start (.receive (.until []))) :
    fault = .offline connection.offlineMessage := by
  cases transition_of_step hstep with
  | refuse | startCancelled | broken | fails =>
    cases hresult
    rfl
  | noDelimiter => exact absurd rfl hmove
  | _ => cases hresult

/-- Only a receive for which there can be no room crashes, on a connection that takes calls. -/
theorem crash_step_iff (hstep : connection.step move = some (next, effect)) :
    effect.result = some (.error .crash) ↔
      connection.usable = true ∧ connection.cancelled = false ∧
        ∃ n, move = .start (.receive (.exact n)) ∧ Bytes.roomBound ≤ n := by
  constructor
  · intro hresult
    cases transition_of_step hstep with
    | crash _ hcall husable hcancelled hroom =>
      refine ⟨husable, hcancelled, ?_⟩
      obtain ⟨n, rfl, hn⟩ := Command.exists_exact_of_room hcall hroom
      exact ⟨n, rfl, hn⟩
    | _ => cases hresult
  · rintro ⟨husable, hcancelled, n, rfl, hn⟩
    cases transition_of_step hstep with
    | crash => rfl
    | refuse _ _ h => simp [husable] at h
    | startCancelled _ _ _ h => simp [hcancelled] at h
    | start _ hcall _ _ hroom =>
      cases hcall
      exact absurd hroom (Nat.not_lt_of_le hn)
    | fails _ _ hmove => simp at hmove

/-- A call that crashes leaves the connection as it was. -/
theorem eq_of_crash (hstep : connection.step move = some (next, effect))
    (hresult : effect.result = some (.error .crash)) : next = connection := by
  cases transition_of_step hstep with
  | crash => rfl
  | _ => cases hresult

/-- Only setting the message changes it. -/
theorem offlineMessage_step (hstep : connection.step move = some (next, effect)) :
    next.offlineMessage = messageAfter connection.offlineMessage move := by
  cases transition_of_step hstep with
  | setMessage => rfl
  | refuse _ hcall _ | startCancelled _ hcall _ _ | start _ hcall _ _ _ | crash _ hcall _ _ _ =>
    exact (messageAfter_of_call? hcall connection.offlineMessage).symm
  | fails _ _ hmove =>
    rcases hmove with ⟨rfl, -⟩ | ⟨rfl, -⟩ | ⟨cause, rfl, -⟩ <;> rfl
  | _ => rfl

end Step

section Idle

variable {connection : Connection}

/-- A connection that is closed or has failed refuses sends and receives at once. -/
theorem step_start_of_unusable {command : Command} (hidle : connection.call = none)
    (hunusable : connection.closed = true ∨ connection.failed = true)
    (htransfers : command.Transfers) :
    connection.step (.start command) =
      some (connection, returns (.error (.fault (.offline connection.offlineMessage)))) := by
  have husable : connection.usable = false := by
    rcases hunusable with h | h <;> simp [usable, h]
  obtain ⟨call, hcall⟩ := Command.transfers_iff.mp htransfers
  obtain ⟨⟨next, effect⟩, hstep⟩ : ∃ result, connection.step (.start command) = some result :=
    ⟨connection.start command, by simp [step, hidle]⟩
  rw [hstep]
  cases transition_of_step hstep with
  | refuse => rfl
  | startCancelled _ _ h _ | start _ _ h _ _ | crash _ _ h _ _ => simp [husable] at h
  | noDelimiter => exact absurd rfl htransfers
  | setMessage | closeAgain | close => cases hcall
  | fails _ _ hmove => simp at hmove

/-- A receive up to nothing is refused and changes nothing. -/
theorem step_start_noDelimiter (hidle : connection.call = none) :
    connection.step (.start (.receive (.until []))) =
      some (connection, returns (.error (.fault emptyDelimiter))) := by
  simp [step, hidle, start, Scanner.ofDelimiter?]

theorem step_start_close_again (hidle : connection.call = none)
    (hclosed : connection.closed = true) :
    connection.step (.start .close) = some (connection, returns (.ok [])) := by
  simp [step, hidle, start, hclosed]

/-- The first close cancels the token and waits for the fill loop. -/
theorem step_start_close (hidle : connection.call = none) (hopen : connection.closed = false) :
    connection.step (.start .close) =
      some ({ connection with closed := true, cancelled := true, call := some .closing },
        silent) := by
  simp [step, hidle, start, hopen]

end Idle

section Run

variable {options : ConnectOptions} {stream : Bytes} {start : Connection} {moves : List Move}
  {connection : Connection} {effects : List Effect}

/-- The message is the one that was set last. -/
theorem offlineMessage_eq (hconnect : connect options (.accepted stream) = .ok start)
    (hrun : start.run moves = some (connection, effects)) :
    connection.offlineMessage = lastMessage moves := by
  obtain ⟨-, rfl⟩ := connect_accepted_eq_ok_iff.mp hconnect
  refine run_induction (P := fun moves connection => connection.offlineMessage = lastMessage moves)
    rfl ?_ hrun
  intro moves effects connection move next effect _ ih hstep
  rw [offlineMessage_step hstep, ih, lastMessage, lastMessage, List.foldl_append]
  rfl

/-- A connection is closed if it was asked to close. -/
theorem closed_iff (hconnect : connect options (.accepted stream) = .ok start)
    (hrun : start.run moves = some (connection, effects)) :
    connection.closed = true ↔ .start .close ∈ moves := by
  obtain ⟨-, rfl⟩ := connect_accepted_eq_ok_iff.mp hconnect
  refine run_induction
    (P := fun moves connection => connection.closed = true ↔ .start .close ∈ moves) ?_ ?_ hrun
  · simp [fresh]
  · intro moves effects connection move next effect _ ih hstep
    rw [List.mem_append, List.mem_singleton, ← ih]
    cases hclosed : connection.closed with
    | true => simp [closed_step_mono hstep hclosed]
    | false =>
      rw [closed_step_iff hstep hclosed, eq_comm]
      simp

/-- Unless closing is abandoned, a closed connection is still closing, or it is released. -/
theorem closing_or_released (hconnect : connect options (.accepted stream) = .ok start)
    (hrun : start.run moves = some (connection, effects)) (hawaited : .abandon ∉ moves)
    (hclosed : connection.closed = true) :
    connection.call = some .closing ∨ connection.call = none ∧ connection.Released := by
  -- Induction on the run from its end. The calls need a usable connection, so none is pending
  -- but the close, and the fill loop makes no move after it.
  revert hawaited hclosed
  refine run_induction (P := fun moves connection => .abandon ∉ moves → connection.closed = true →
    connection.call = some .closing ∨ connection.call = none ∧ connection.Released) ?_ ?_ hrun
  · obtain ⟨-, rfl⟩ := connect_accepted_eq_ok_iff.mp hconnect
    intro _ hclosed
    cases hclosed
  · intro moves effects connection move next effect hrun ih hstep hawaited hclosed
    simp only [List.mem_append, List.mem_singleton, not_or] at hawaited
    have hsound := Sound.of_run hconnect hrun
    have hbefore := ih hawaited.1
    cases transition_of_step hstep with
    | close => exact .inl rfl
    | closed hcall hstopped =>
      exact .inr ⟨rfl, hsound.stops.cancelled_of_closed hclosed,
        hsound.source.phased.ended_or_crashed hstopped, rfl⟩
    | fill =>
      refine (hbefore hclosed).imp_right fun ⟨_, hreleased⟩ => ?_
      simp [hsound.step_fill_of_completed hreleased.completed] at hstep
    | cancelTask =>
      exact (hbefore hclosed).imp_right fun ⟨hidle, hreleased⟩ =>
        ⟨hidle, rfl, hreleased.ended, hreleased.completed⟩
    | setMessage =>
      exact (hbefore hclosed).imp_right fun ⟨hidle, hreleased⟩ =>
        ⟨hidle, hreleased.cancelled, hreleased.ended, hreleased.completed⟩
    | refuse | noDelimiter | closeAgain | crash => exact hbefore hclosed
    | startCancelled _ _ husable _ | start _ _ husable _ _ =>
      simp [fail, (usable_iff.mp husable).1] at hclosed
    | sent hcall | receive hcall _ | received hcall _ | broken hcall _ | accept hcall _ _ =>
      have husable := hsound.pending _ hcall (by simp)
      simp [fail, (usable_iff.mp husable).1] at hclosed
    | fails hcall hpending _ =>
      have husable := hsound.pending _ hcall hpending
      simp [fail, (usable_iff.mp husable).1] at hclosed
    | abandon => exact absurd rfl hawaited.2

end Run

section Closing

variable {options : ConnectOptions} {connection last : Connection}

/-- Unless it is abandoned, a pending close returns without a fault, and only after the fill loop
has stopped. -/
theorem step_of_closing {move : Move} {next : Connection} {effect : Effect}
    (hcall : connection.call = some .closing) (hstep : connection.step move = some (next, effect))
    (hmove : move ≠ .abandon) :
    (next.call = some .closing ∧ effect.result = none) ∨
      (move = .advance ∧ connection.source.fill.stopped = true ∧ next.call = none ∧
        effect.result = some (.ok [])) := by
  cases transition_of_step hstep with
  | fill | cancelTask => exact .inl ⟨hcall, rfl⟩
  | closed _ hstopped => exact .inr ⟨rfl, hstopped, rfl, rfl⟩
  | abandon => exact absurd rfl hmove
  | refuse hidle | startCancelled hidle | start hidle | noDelimiter hidle | setMessage hidle
  | closeAgain hidle | close hidle | crash hidle => simp [hidle] at hcall
  | sent hother | receive hother | received hother | broken hother | accept hother =>
    simp [hcall] at hother
  | fails hother hpending _ =>
    rw [hcall, Option.some.injEq] at hother
    exact absurd hother.symm hpending

/-- What the fill loop does while a connection is closing. -/
theorem run_fill_of_closing {moves : List FillMove} {effects : List Effect}
    (hsound : Sound options connection) (hcall : connection.call = some .closing)
    (hcancelled : connection.cancelled = true)
    (hrun : connection.run (moves.map .fill) = some (last, effects)) :
    moves.length + last.weight ≤ connection.weight ∧ last.call = some .closing ∧
      last.cancelled = true := by
  induction moves generalizing connection effects with
  | nil =>
    cases hrun
    exact ⟨by simp, hcall, hcancelled⟩
  | cons move moves ih =>
    obtain ⟨next, effect, later, hstep, hlast, rfl⟩ := run_cons_eq_some hrun
    have hweight := weight_fill_lt hsound hstep
    obtain ⟨hnext, -⟩ := (step_of_closing hcall hstep (by simp)).resolve_right (by simp)
    obtain ⟨hlength, hclosing⟩ :=
      ih (hsound.step hstep) hnext (cancelled_step hstep hcancelled) hlast
    refine ⟨?_, hclosing⟩
    rw [List.length_cons]
    omega

/-- A close is not kept from returning: the fill loop makes so many moves at most, and as soon as it
makes no more, the close returns. -/
theorem closes {moves : List FillMove} {effects : List Effect} (hsound : Sound options connection)
    (hcall : connection.call = some .closing) (hcancelled : connection.cancelled = true)
    (hrun : connection.run (moves.map .fill) = some (last, effects)) :
    moves.length ≤ connection.weight ∧
      ((∃ move result, last.step (.fill move) = some result) ∨
        ∃ next, last.step .advance = some (next, returns (.ok [])) ∧ next.call = none ∧
          next.Released) := by
  obtain ⟨hweight, hclosing, hlast⟩ := run_fill_of_closing hsound hcall hcancelled hrun
  refine ⟨by omega, ?_⟩
  by_cases hstopped : last.source.fill.stopped = true
  · have hadvance : last.step .advance =
        some ({ last with
          source := { last.source with pipe := last.source.pipe.complete }, call := none },
          returns (.ok [])) := by
      simp [step, hclosing, advance, hstopped]
    have hended := (run_preserves Sound.step hrun hsound).source.phased.ended_or_crashed hstopped
    exact .inr ⟨_, hadvance, rfl, hlast, hended, rfl⟩
  · obtain ⟨move, result, hstep, -⟩ := exists_fill_step_of_cancelled hlast hstopped
    exact .inl ⟨move, result, hstep⟩

end Closing

/-- The life of a connection in any run. Neither flag is ever taken back. A connection fails in
exactly those moves in which a send or receive on it returns a fault, and it is closed by the first
close. A receive of more bytes than there can be room for crashes on a connection that takes it, and
leaves the connection as it was; nothing else crashes. Once it has failed or is closed, every send
and receive is refused on the spot, with the fault of an unreachable service, and changes nothing.
All faults of sends and receives have the message that was set last. A receive without a delimiter
is a fault of the checker in every state and changes nothing. A close can begin in every state; the
first one leaves the connection closing, and any other changes nothing. While it is closing, nothing
makes the close return a fault, the fill loop comes to its end in a bounded number of moves, and
then the close returns. A connection that was closed, with the close awaited to its end, is
released. -/
theorem lifecycle {options : ConnectOptions} {stream : Bytes} {start : Connection}
    {moves : List Move} {connection : Connection} {effects : List Effect}
    (hconnect : connect options (.accepted stream) = .ok start)
    (hrun : start.run moves = some (connection, effects)) :
    (∀ move next effect, connection.step move = some (next, effect) →
      (connection.failed = true → next.failed = true) ∧
      (connection.closed = true → next.closed = true) ∧
      (connection.failed = false → (next.failed = true ↔
        connection.Transferring move ∧
          ∃ fault, effect.result = some (.error (.fault fault)))) ∧
      (connection.closed = false → (next.closed = true ↔ move = .start .close)) ∧
      (∀ fault, effect.result = some (.error (.fault fault)) →
        move ≠ .start (.receive (.until [])) → fault = .offline (lastMessage moves)) ∧
      (effect.result = some (.error .crash) ↔
        connection.usable = true ∧ connection.cancelled = false ∧
          ∃ n, move = .start (.receive (.exact n)) ∧ Bytes.roomBound ≤ n) ∧
      (effect.result = some (.error .crash) → next = connection)) ∧
    (connection.closed = true ↔ .start .close ∈ moves) ∧
    (connection.call = none →
      (connection.closed = true ∨ connection.failed = true → ∀ command, command.Transfers →
        connection.step (.start command) =
          some (connection, returns (.error (.fault (.offline (lastMessage moves)))))) ∧
      connection.step (.start (.receive (.until []))) = some (connection,
        returns (.error (.fault (.internal "receive_until called with an empty delimiter")))) ∧
      (connection.closed = true →
        connection.step (.start .close) = some (connection, returns (.ok []))) ∧
      (connection.closed = false →
        connection.step (.start .close) =
          some ({ connection with closed := true, cancelled := true, call := some .closing },
            silent))) ∧
    (connection.call = some .closing →
      (∀ move next effect, connection.step move = some (next, effect) → move ≠ .abandon →
        (next.call = some .closing ∧ effect.result = none) ∨
          (move = .advance ∧ connection.source.fill.stopped = true ∧ next.call = none ∧
            effect.result = some (.ok []))) ∧
      (∀ (fillMoves : List FillMove) last after,
        connection.run (fillMoves.map .fill) = some (last, after) →
          fillMoves.length ≤ connection.weight ∧
            ((∃ move result, last.step (.fill move) = some result) ∨
              ∃ next, last.step .advance = some (next, returns (.ok [])) ∧ next.call = none ∧
                next.Released))) ∧
    (.abandon ∉ moves → connection.closed = true → connection.call ≠ some .closing →
      connection.Released) := by
  have hsound := Sound.of_run hconnect hrun
  have hmessage := offlineMessage_eq hconnect hrun
  refine ⟨?_, closed_iff hconnect hrun, ?_, ?_, ?_⟩
  · intro move next effect hstep
    refine ⟨failed_step_mono hstep, closed_step_mono hstep, hsound.failed_step_iff hstep,
      closed_step_iff hstep, ?_, crash_step_iff hstep, eq_of_crash hstep⟩
    intro fault hresult hmove
    rw [← hmessage]
    exact fault_eq_of_step hstep hresult hmove
  · intro hidle
    refine ⟨?_, step_start_noDelimiter hidle, step_start_close_again hidle,
      step_start_close hidle⟩
    intro hunusable command htransfers
    rw [← hmessage]
    exact step_start_of_unusable hidle hunusable htransfers
  · intro hcall
    have hcancelled := hsound.stops.cancelled_of_closed (hsound.stops.closing hcall)
    -- A close that is pending has already cancelled the token, so the loop stops by itself.
    exact ⟨fun move next effect => step_of_closing hcall,
      fun fillMoves last after => closes hsound hcall hcancelled⟩
  · intro hawaited hclosed hcall
    exact ((closing_or_released hconnect hrun hawaited hclosed).resolve_left hcall).2

/-- The peer hangs up before a receive has its byte. -/
def hungUp : List Move :=
  [.start (.setMessage "gone"), .fill .proceed, .fill .proceed, .fill .streamEnd, .fill .proceed,
    .start (.receive (.exact 1)), .advance]

/-- A connection that has failed, with a message set before, and is then closed. -/
theorem lifecycle_hung_up :
    ∃ start connection effects closed later,
      connect ⟨.zero, 4, 2, none, ""⟩ (.accepted []) = .ok start ∧
      start.run hungUp = some (connection, effects) ∧
      connection.failed = true ∧
      connection.step (.start (.send [1])) =
        some (connection, returns (.error (.fault (.offline "gone")))) ∧
      start.run (hungUp ++ [.start .close, .advance]) = some (closed, later) ∧
      closed.Released ∧ closed.step (.start .close) = some (closed, returns (.ok [])) := by
  obtain ⟨start, ⟨connection, effects⟩, ⟨closed, later⟩, hconnect, ⟨hrun, hidle, hfailed⟩, hclose,
      hdone, hclosed⟩ : ∃ start result last,
        connect ⟨.zero, 4, 2, none, ""⟩ (.accepted []) = .ok start ∧
        (start.run hungUp = some result ∧ result.1.call = none ∧ result.1.failed = true) ∧
        start.run (hungUp ++ [.start .close, .advance]) = some last ∧
        last.1.call = none ∧ last.1.closed = true :=
    ⟨_, _, _, rfl, ⟨rfl, rfl, rfl⟩, rfl, rfl, rfl⟩
  have hafter := lifecycle hconnect hclose
  have hnotClosing : closed.call ≠ some .closing := by
    rw [show closed.call = none from hdone]
    nofun
  refine ⟨start, connection, effects, closed, later, hconnect, hrun, hfailed, ?_, hclose, ?_, ?_⟩
  · exact ((lifecycle hconnect hrun).2.2.1 hidle).1 (.inr hfailed) _ trivial
  · exact hafter.2.2.2.2 (by decide) hclosed hnotClosing
  · exact (hafter.2.2.1 hdone).2.2.1 hclosed

end Connection

end CheckHarness
