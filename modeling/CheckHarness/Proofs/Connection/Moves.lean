import CheckHarness.Proofs.Connection.Fill
import CheckHarness.Proofs.Connection.Receiving
import Mathlib.Data.List.Induction

namespace CheckHarness

/-- The call that a command makes on a connection that takes it, unless it is a close. -/
def Command.call? : Command → Option Call
  | .send data => some (.sending data)
  | .receive (.exact n) => some (.receiving (.exact n [] .looking))
  | .receive (.until delimiter) =>
    (Scanner.ofDelimiter? delimiter).map fun scanner => .receiving (.until scanner .looking)
  | .setMessage _ | .close => none

/-- Sends and receives do not close. -/
theorem Command.ne_closing_of_call? {command : Command} {call : Call}
    (hcall : command.call? = some call) : call ≠ .closing := by
  rintro rfl
  cases command with
  | receive receive => cases receive <;> simp [Command.call?] at hcall
  | _ => cases hcall

namespace Connection

/-- The moves of a connection, case by case. -/
inductive Transition : Connection → Move → Connection → Effect → Prop where
  | fill {connection move source}
    (htransition : Fill.Transition connection.chunk connection.cancelled connection.source move source) :
    Transition connection (.fill move) { connection with source } ⟨none, fillEvents move⟩
  | refuse {connection command call} (hidle : connection.call = none)
    (hcall : command.call? = some call) (husable : connection.usable = false) :
    Transition connection (.start command) connection (returns connection.offline)
  | startCancelled {connection command call} (hidle : connection.call = none)
    (hcall : command.call? = some call) (husable : connection.usable = true)
    (hcancelled : connection.cancelled = true) :
    Transition connection (.start command) (connection.fail call .cancelled).1
      (connection.fail call .cancelled).2
  | start {connection command call} (hidle : connection.call = none)
    (hcall : command.call? = some call) (husable : connection.usable = true)
    (hcancelled : connection.cancelled = false) (hroom : call.room < Bytes.roomBound) :
    Transition connection (.start command) { connection with call := some call } silent
  | crash {connection command call} (hidle : connection.call = none)
    (hcall : command.call? = some call) (husable : connection.usable = true)
    (hcancelled : connection.cancelled = false) (hroom : Bytes.roomBound ≤ call.room) :
    Transition connection (.start command) connection (returns (.error .crash))
  | noDelimiter {connection} (hidle : connection.call = none) :
    Transition connection (.start (.receive (.until []))) connection
      (returns (.error (.fault emptyDelimiter)))
  | setMessage {connection message} (hidle : connection.call = none) :
    Transition connection (.start (.setMessage message))
      { connection with offlineMessage := message } (returns (.ok []))
  | closeAgain {connection} (hidle : connection.call = none) (hclosed : connection.closed = true) :
    Transition connection (.start .close) connection (returns (.ok []))
  | close {connection} (hidle : connection.call = none) (hopen : connection.closed = false) :
    Transition connection (.start .close)
      { connection with closed := true, cancelled := true, call := some .closing } silent
  | sent {connection} (hcall : connection.call = some (.sending [])) :
    Transition connection .advance { connection with call := none } (returns (.ok []))
  | receive {connection receiving next pipe} (hcall : connection.call = some (.receiving receiving))
    (htransition : Receiving.Transition connection.source.pipe receiving (.continues next pipe)) :
    Transition connection .advance
      { connection with
        source := { connection.source with pipe }, call := some (.receiving next) } silent
  | received {connection receiving data pipe}
    (hcall : connection.call = some (.receiving receiving))
    (htransition : Receiving.Transition connection.source.pipe receiving (.done data pipe)) :
    Transition connection .advance
      { connection with source := { connection.source with pipe }, call := none }
      (returns (.ok data))
  | broken {connection receiving cause} (hcall : connection.call = some (.receiving receiving))
    (htransition : Receiving.Transition connection.source.pipe receiving (.broken cause)) :
    Transition connection .advance (connection.fail (.receiving receiving) (.broken cause)).1
      (connection.fail (.receiving receiving) (.broken cause)).2
  | closed {connection} (hcall : connection.call = some .closing)
    (hstopped : connection.source.fill.stopped = true) :
    Transition connection .advance
      { connection with
        source := { connection.source with pipe := connection.source.pipe.complete }
        call := none } (returns (.ok []))
  | accept {connection n rest} (hcall : connection.call = some (.sending rest)) (hn : 0 < n)
    (hrest : n ≤ rest.length) :
    Transition connection (.accept n)
      { connection with
        written := connection.written ++ rest.take n, call := some (.sending (rest.drop n)) } silent
  | fails {connection move call failure} (hcall : connection.call = some call)
    (hpending : call ≠ .closing)
    (hmove : move = .notice ∧ failure = .cancelled ∧ connection.cancelled = true ∨
      move = .expire ∧ failure = .timedOut ∧ connection.cancelled = false ∨
      ∃ cause, move = .writeError cause ∧ failure = .broken cause) :
    Transition connection move (connection.fail call failure).1 (connection.fail call failure).2
  | abandon {connection call} (hcall : connection.call = some call) (hrests : rests call = true) :
    Transition connection .abandon { connection with call := none } silent
  | cancelTask {connection} :
    Transition connection .cancelTask { connection with cancelled := true } silent

theorem transition_of_begin {connection : Connection} {command : Command} {call : Call}
    {result : Connection × Effect} (hidle : connection.call = none)
    (hcall : command.call? = some call) (hbegin : connection.begin call = result) :
    Transition connection (.start command) result.1 result.2 := by
  subst result
  unfold begin
  split
  · rename_i husable
    exact .refuse hidle hcall (by simpa using husable)
  · rename_i husable
    split
    · rename_i hcancelled
      exact .startCancelled hidle hcall (by simpa using husable) hcancelled
    · rename_i hcancelled
      split
      · rename_i hroom
        exact .crash hidle hcall (by simpa using husable) (by simpa using hcancelled) hroom
      · rename_i hroom
        exact .start hidle hcall (by simpa using husable) (by simpa using hcancelled) (by omega)

theorem transition_of_start {connection : Connection} {command : Command}
    {result : Connection × Effect} (hidle : connection.call = none)
    (hstart : connection.start command = result) :
    Transition connection (.start command) result.1 result.2 := by
  cases command with
  | send data => exact transition_of_begin hidle rfl hstart
  | receive receive =>
    cases receive with
    | exact n => exact transition_of_begin hidle rfl hstart
    | «until» delimiter =>
      simp only [Connection.start] at hstart
      cases hscanner : Scanner.ofDelimiter? delimiter with
      | none =>
        rw [hscanner] at hstart
        subst result
        have hempty : delimiter = [] := by simpa [Scanner.ofDelimiter?] using hscanner
        subst hempty
        exact .noDelimiter hidle
      | some scanner =>
        rw [hscanner] at hstart
        exact transition_of_begin hidle (by simp [Command.call?, hscanner]) hstart
  | setMessage message =>
    subst result
    exact .setMessage hidle
  | close =>
    subst result
    simp only [Connection.start]
    split
    · rename_i hclosed
      exact .closeAgain hidle hclosed
    · rename_i hopen
      exact .close hidle (by simpa using hopen)

theorem transition_of_advance {connection : Connection} {call : Call}
    {result : Connection × Effect} (hcall : connection.call = some call)
    (hadvance : connection.advance call = some result) :
    Transition connection .advance result.1 result.2 := by
  cases call with
  | sending rest =>
    simp only [advance, Option.ite_none_right_eq_some, Option.some.injEq] at hadvance
    obtain ⟨rfl, rfl⟩ := hadvance
    exact .sent hcall
  | receiving receiving =>
    simp only [advance, Option.ite_none_left_eq_some] at hadvance
    obtain ⟨-, hadvance⟩ := hadvance
    split at hadvance
    · cases hadvance
    · rename_i hstep
      cases hadvance
      exact .receive hcall (Receiving.transition_of_step hstep)
    · rename_i hstep
      cases hadvance
      exact .received hcall (Receiving.transition_of_step hstep)
    · rename_i hstep
      cases hadvance
      exact .broken hcall (Receiving.transition_of_step hstep)
  | closing =>
    simp only [advance, Option.ite_none_right_eq_some, Option.some.injEq] at hadvance
    obtain ⟨hstopped, rfl⟩ := hadvance
    exact .closed hcall hstopped

/-- Every move is one of the transitions. -/
theorem transition_of_step {connection next : Connection} {move : Move} {effect : Effect}
    (hstep : connection.step move = some (next, effect)) :
    Transition connection move next effect := by
  cases move with
  | fill move =>
    simp only [step, Option.map_eq_some_iff, Prod.mk.injEq] at hstep
    obtain ⟨source, hfill, rfl, rfl⟩ := hstep
    exact .fill (Fill.transition_of_step hfill)
  | start command =>
    simp only [step, Option.ite_none_right_eq_some, Option.some.injEq] at hstep
    obtain ⟨hidle, hstart⟩ := hstep
    exact transition_of_start (by simpa using hidle) hstart
  | advance =>
    simp only [step, Option.bind_eq_some_iff] at hstep
    obtain ⟨call, hcall, hadvance⟩ := hstep
    exact transition_of_advance hcall hadvance
  | accept n =>
    simp only [step] at hstep
    split at hstep
    · rename_i rest hcall
      simp only [Option.ite_none_right_eq_some, Option.some.injEq, Prod.mk.injEq] at hstep
      obtain ⟨⟨hn, hrest⟩, rfl, rfl⟩ := hstep
      exact .accept hcall hn hrest
    · cases hstep
  | writeError cause =>
    simp only [step] at hstep
    split at hstep
    · rename_i hcall
      cases hstep
      exact .fails hcall (by simp) (.inr (.inr ⟨cause, rfl, rfl⟩))
    · cases hstep
  | notice =>
    simp only [step] at hstep
    split at hstep
    · rename_i call hcall
      simp only [Option.ite_none_right_eq_some, Option.some.injEq, Bool.and_eq_true] at hstep
      obtain ⟨⟨hcancelled, hwatches⟩, hfail⟩ := hstep
      cases hfail
      exact .fails hcall (by rintro rfl; cases hwatches) (.inl ⟨rfl, rfl, hcancelled⟩)
    · cases hstep
  | expire =>
    simp only [step] at hstep
    split at hstep
    · rename_i call hcall
      simp only [Option.ite_none_right_eq_some, Option.some.injEq, Bool.and_eq_true] at hstep
      obtain ⟨⟨⟨_, hcancelled⟩, hwaits⟩, hfail⟩ := hstep
      cases hfail
      have huncancelled : connection.cancelled = false := by simpa using hcancelled
      exact .fails hcall (by rintro rfl; cases hwaits) (.inr (.inl ⟨rfl, rfl, huncancelled⟩))
    · cases hstep
  | abandon =>
    simp only [step, Option.ite_none_right_eq_some, Option.some.injEq, Prod.mk.injEq,
      Option.any_eq_true] at hstep
    obtain ⟨⟨call, hcall, hrests⟩, rfl, rfl⟩ := hstep
    exact .abandon hcall hrests
  | cancelTask =>
    cases hstep
    exact .cancelTask

section Inversion

variable {connection next : Connection} {effect : Effect}

/-- A move of the fill loop leaves the call and the latches alone. -/
theorem fill_of_step {move : FillMove} (hstep : connection.step (.fill move) = some (next, effect)) :
    ∃ source,
      Fill.Transition connection.chunk connection.cancelled connection.source move source ∧
        next = { connection with source } ∧ effect = ⟨none, fillEvents move⟩ := by
  cases transition_of_step hstep with
  | fill htransition => exact ⟨_, htransition, rfl, rfl⟩
  | fails _ _ hmove => simp at hmove

/-- A send returns when everything was accepted. -/
theorem advance_of_sending {rest : Bytes} (hcall : connection.call = some (.sending rest))
    (hstep : connection.step .advance = some (next, effect)) :
    rest = [] ∧ next = { connection with call := none } ∧ effect = returns (.ok []) := by
  cases transition_of_step hstep with
  | sent hpending =>
    cases hcall.symm.trans hpending
    exact ⟨rfl, rfl, rfl⟩
  | receive hpending | received hpending | broken hpending | closed hpending =>
    cases hcall.symm.trans hpending
  | fails _ _ hmove => simp at hmove

/-- A close returns when the fill loop has stopped. -/
theorem advance_of_closing (hcall : connection.call = some .closing)
    (hstep : connection.step .advance = some (next, effect)) :
    connection.source.fill.stopped = true ∧
      next = { connection with
        source := { connection.source with pipe := connection.source.pipe.complete }
        call := none } ∧
      effect = returns (.ok []) := by
  cases transition_of_step hstep with
  | closed _ hstopped => exact ⟨hstopped, rfl, rfl⟩
  | sent hpending | receive hpending | received hpending | broken hpending =>
    cases hcall.symm.trans hpending
  | fails _ _ hmove => simp at hmove

/-- The steps of a pending receive, as the connection takes them. -/
inductive Receives (connection : Connection) (receiving : Receiving) : Connection → Effect → Prop
  where
  | receive {next pipe}
    (htransition : Receiving.Transition connection.source.pipe receiving (.continues next pipe)) :
    Receives connection receiving
      { connection with
        source := { connection.source with pipe }, call := some (.receiving next) } silent
  | received {data pipe}
    (htransition : Receiving.Transition connection.source.pipe receiving (.done data pipe)) :
    Receives connection receiving
      { connection with source := { connection.source with pipe }, call := none }
      (returns (.ok data))
  | broken {cause}
    (htransition : Receiving.Transition connection.source.pipe receiving (.broken cause)) :
    Receives connection receiving (connection.fail (.receiving receiving) (.broken cause)).1
      (connection.fail (.receiving receiving) (.broken cause)).2

theorem receives_of_step {receiving : Receiving}
    (hcall : connection.call = some (.receiving receiving))
    (hstep : connection.step .advance = some (next, effect)) :
    Receives connection receiving next effect := by
  cases transition_of_step hstep with
  | receive hpending htransition =>
    cases hcall.symm.trans hpending
    exact .receive htransition
  | received hpending htransition =>
    cases hcall.symm.trans hpending
    exact .received htransition
  | broken hpending htransition =>
    cases hcall.symm.trans hpending
    exact .broken htransition
  | sent hpending | closed hpending => cases hcall.symm.trans hpending
  | fails _ _ hmove => simp at hmove

/-- Only a pending call advances. -/
theorem exists_call_of_advance (hstep : connection.step .advance = some (next, effect)) :
    ∃ call, connection.call = some call := by
  obtain ⟨call, hcall, -⟩ := Option.bind_eq_some_iff.mp hstep
  exact ⟨call, hcall⟩

end Inversion

/-- A connection that is cancelled once stays so. -/
theorem cancelled_step {connection next : Connection} {move : Move} {effect : Effect}
    (hstep : connection.step move = some (next, effect)) (hcancelled : connection.cancelled = true) :
    next.cancelled = true := by
  cases transition_of_step hstep with
  | startCancelled | close | broken | fails | cancelTask => rfl
  | _ => exact hcancelled

theorem step_fill {connection : Connection} {move : FillMove} {source : Fill.State}
    (hfill : Fill.step connection.chunk connection.cancelled connection.source move = some source) :
    connection.step (.fill move) = some ({ connection with source }, ⟨none, fillEvents move⟩) := by
  simp [step, hfill]

theorem step_fill_of_stopped {connection : Connection}
    (hstopped : connection.source.fill.stopped = true) (move : FillMove) :
    connection.step (.fill move) = none := by
  rw [step, Fill.step_of_stopped hstopped, Option.map_none]

theorem run_cons {connection next last : Connection} {move : Move} {moves : List Move}
    {effect : Effect} {effects : List Effect} (hstep : connection.step move = some (next, effect))
    (hrun : next.run moves = some (last, effects)) :
    connection.run (move :: moves) = some (last, effect :: effects) := by
  simp [run, hstep, hrun]

theorem run_cons_eq_some {connection last : Connection} {move : Move} {moves : List Move}
    {effects : List Effect} (hrun : connection.run (move :: moves) = some (last, effects)) :
    ∃ next effect later, connection.step move = some (next, effect) ∧
      next.run moves = some (last, later) ∧ effects = effect :: later := by
  obtain ⟨⟨next, effect⟩, hstep, hrest⟩ := Option.bind_eq_some_iff.mp hrun
  obtain ⟨⟨last, later⟩, hlast, hresult⟩ := Option.bind_eq_some_iff.mp hrest
  cases hresult
  exact ⟨next, effect, later, hstep, hlast, rfl⟩

theorem run_concat_eq_some {connection last : Connection} {moves : List Move} {move : Move}
    {effects : List Effect} (hrun : connection.run (moves ++ [move]) = some (last, effects)) :
    ∃ middle before effect, connection.run moves = some (middle, before) ∧
      middle.step move = some (last, effect) ∧ effects = before ++ [effect] := by
  induction moves generalizing connection effects with
  | nil =>
    obtain ⟨next, effect, later, hstep, hlast, rfl⟩ := run_cons_eq_some hrun
    cases hlast
    exact ⟨connection, [], effect, rfl, hstep, rfl⟩
  | cons first moves ih =>
    obtain ⟨next, effect, later, hstep, hlast, rfl⟩ := run_cons_eq_some hrun
    obtain ⟨middle, before, final, hbefore, hfinal, rfl⟩ := ih hlast
    exact ⟨middle, effect :: before, final, run_cons hstep hbefore, hfinal, rfl⟩

/-- What is true at first, and after every move of a run if it was true before, is true at the end.
It may speak about all moves so far. -/
theorem run_induction {P : List Move → Connection → Prop} {connection last : Connection}
    {moves : List Move} {effects : List Effect} (hfirst : P [] connection)
    (hmove : ∀ {moves effects middle move next effect}, connection.run moves = some (middle, effects) →
      P moves middle → middle.step move = some (next, effect) → P (moves ++ [move]) next)
    (hrun : connection.run moves = some (last, effects)) : P moves last := by
  induction moves using List.reverseRecOn generalizing last effects with
  | nil =>
    cases hrun
    exact hfirst
  | append_singleton moves move ih =>
    obtain ⟨middle, before, effect, hbefore, hstep, -⟩ := run_concat_eq_some hrun
    exact hmove hbefore (ih hbefore) hstep

/-- What every move keeps, a run keeps. -/
theorem run_preserves {P : Connection → Prop}
    (hmove : ∀ {connection move next effect}, P connection →
      connection.step move = some (next, effect) → P next)
    {connection last : Connection} {moves : List Move} {effects : List Effect}
    (hrun : connection.run moves = some (last, effects)) (hfirst : P connection) : P last := by
  induction moves generalizing connection effects with
  | nil =>
    cases hrun
    exact hfirst
  | cons move moves ih =>
    obtain ⟨next, effect, later, hstep, hlast, rfl⟩ := run_cons_eq_some hrun
    exact ih hlast (hmove hfirst hstep)

end Connection

end CheckHarness
