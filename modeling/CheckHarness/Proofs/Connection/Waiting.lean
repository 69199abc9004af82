import CheckHarness.Proofs.Connection.Soundness

namespace CheckHarness

namespace Connection

/-- A receive waits and nothing has woken it. -/
structure ReceiveWaits (connection : Connection) (receiving : Receiving) : Prop where
  call : connection.call = some (.receiving receiving)
  parked : receiving.stage = .parked
  unpermitted : connection.source.pipe.readable = false

/-- The fill loop waits and nothing has woken it. -/
structure FillWaits (connection : Connection) : Prop where
  waiting : connection.source.fill = .waiting
  unpermitted : connection.source.pipe.writable = false

namespace Sound

variable {options : ConnectOptions} {connection : Connection} {receiving : Receiving}

theorem upToDate (hsound : Sound options connection) (hwaits : connection.ReceiveWaits receiving) :
    receiving.UpToDate connection.source.pipe :=
  (hsound.receiving receiving hwaits.call).upToDate (.inr hwaits.parked) hwaits.unpermitted

/-- There is room in the pipe beside a receive that waits, and more may come. -/
theorem space_pos_of_waits (hsound : Sound options connection)
    (hwaits : connection.ReceiveWaits receiving) :
    0 < connection.source.pipe.space ∧ connection.source.pipe.completed = false := by
  have hcapacity := hsound.source.capacity_pos
  have hupToDate := hsound.upToDate hwaits
  unfold Pipe.space
  cases receiving with
  | exact n taken stage =>
    obtain ⟨_, hbuffer, hopen⟩ := hupToDate
    refine ⟨?_, hopen⟩
    rw [hbuffer, List.length_nil]
    omega
  | «until» scanner stage =>
    obtain ⟨_, _, hroom, hopen⟩ := hupToDate
    exact ⟨by omega, hopen⟩

/-- The receive and the fill loop never wait for each other. -/
theorem not_fillWaits_of_waits (hsound : Sound options connection)
    (hwaits : connection.ReceiveWaits receiving) : ¬ connection.FillWaits := by
  intro hfill
  have hspace := hsound.source.waiting hfill.waiting hfill.unpermitted
  have hpos := (hsound.space_pos_of_waits hwaits).1
  omega

end Sound

section Starved

variable {options : ConnectOptions} {connection : Connection} {receiving : Receiving}

/-- Without room for a chunk, nothing comes to the pipe, not even the end of the stream. -/
theorem Sound.starved (hsound : Sound options connection)
    (hroom : Bytes.roomBound ≤ options.chunk) :
    connection.source.pipe.buffer = [] ∧
      (connection.cancelled = false → connection.source.pipe.completed = false) := by
  rw [← hsound.chunk] at hroom
  have hbegun := hsound.source.phased.begun_eq_false hroom
  refine ⟨hsound.source.phased.unbegun hbegun, fun hcancelled => Bool.eq_false_iff.mpr ?_⟩
  intro hcompleted
  have hended := (hsound.stops.completed hcompleted).resolve_right (by simp [hcancelled])
  rw [hended] at hbegun
  cases hbegun

/-- A receive does not break where the fill loop cannot start, since the pipe is never completed. -/
theorem Sound.not_broken_of_starved (hsound : Sound options connection)
    (hroom : Bytes.roomBound ≤ options.chunk) (hcancelled : connection.cancelled = false)
    {cause : String} :
    ¬ Receiving.Transition connection.source.pipe receiving (.broken cause) := by
  obtain ⟨hbuffer, hopen⟩ := hsound.starved hroom
  intro htransition
  cases htransition with
  | exactEnd _ _ hcompleted | untilEnd _ hcompleted => simp [hopen hcancelled] at hcompleted
  | untilFull _ hfull =>
    have hcapacity := hsound.source.capacity_pos
    rw [hbuffer, List.length_nil] at hfull
    omega

end Starved

/-- The fill loop asks the peer for bytes. -/
def Asks (connection : Connection) : Prop :=
  ∃ want, connection.source.fill = .reading want ∧ 0 < want

/-- A fill loop that finds room asks the peer. -/
theorem asks_of_checking {connection : Connection} (hchunk : 0 < connection.chunk)
    (hfill : connection.source.fill = .checking) (hspace : 0 < connection.source.pipe.space) :
    ∃ later effects, connection.run [.fill .proceed] = some (later, effects) ∧
      later.call = connection.call ∧ later.Asks := by
  have hread := step_fill (Fill.step_of_checking hfill hspace)
  exact ⟨_, _, run_cons hread rfl, rfl, _, rfl, by omega⟩

/-- Beside a receive that waits, the fill loop asks the peer for bytes or comes to do so, or to wake
the receive, by steps of its own, if it has room for a chunk. -/
theorem Sound.asks_or_wakes {options : ConnectOptions} {connection : Connection}
    {receiving : Receiving} (hsound : Sound options connection)
    (hroom : options.chunk < Bytes.roomBound) (hwaits : connection.ReceiveWaits receiving) :
    ∃ steps ≤ 2, ∃ later effects,
      connection.run (List.replicate steps (.fill .proceed)) = some (later, effects) ∧
        later.call = connection.call ∧ (later.source.pipe.readable = true ∨ later.Asks) := by
  obtain ⟨hspace, hopen⟩ := hsound.space_pos_of_waits hwaits
  have hchunk := hsound.chunk_pos
  rw [← hsound.chunk] at hroom
  cases hfill : connection.source.fill with
  | starting =>
    have hbegin := step_fill (Fill.step_of_starting hfill hroom)
    let begun : Connection :=
      { connection with source := { connection.source with fill := .checking } }
    have hread : ∃ later effects, begun.run [.fill .proceed] = some (later, effects) ∧
        later.call = begun.call ∧ later.Asks := asks_of_checking hchunk rfl hspace
    obtain ⟨later, effects, hrun, hcall, hasks⟩ := hread
    exact ⟨2, by omega, later, _, run_cons hbegin hrun, hcall, .inr hasks⟩
  | checking =>
    obtain ⟨later, effects, hrun, hcall, hasks⟩ := asks_of_checking hchunk hfill hspace
    exact ⟨1, by omega, later, effects, hrun, hcall, .inr hasks⟩
  | waiting =>
    -- A loop without a permit would wait as well, and the two never do at once.
    have hpermit : connection.source.pipe.writable = true := by
      by_cases hpermit : connection.source.pipe.writable = true
      · exact hpermit
      · exact absurd ⟨hfill, by simpa using hpermit⟩ (hsound.not_fillWaits_of_waits hwaits)
    have hwake := step_fill (Fill.step_of_waiting hfill hpermit)
    let woken : Connection :=
      { connection with
        source := { connection.source with
          fill := .checking, pipe := connection.source.pipe.pollWritable.2 } }
    have hread : ∃ later effects, woken.run [.fill .proceed] = some (later, effects) ∧
        later.call = woken.call ∧ later.Asks := asks_of_checking hchunk rfl hspace
    obtain ⟨later, effects, hrun, hcall, hasks⟩ := hread
    exact ⟨2, by omega, later, _, run_cons hwake hrun, hcall, .inr hasks⟩
  | reading want =>
    have hwant := (hsound.source.reading want hfill).1
    exact ⟨0, by omega, connection, [], rfl, rfl, .inr ⟨want, hfill, hwant⟩⟩
  | holding data =>
    have hcommit := step_fill (Fill.step_of_holding hfill)
    exact ⟨1, by omega, _, _, run_cons hcommit rfl, rfl, .inl rfl⟩
  | finishing =>
    have hcomplete := step_fill (Fill.step_of_finishing hfill)
    exact ⟨1, by omega, _, _, run_cons hcomplete rfl, rfl, .inl rfl⟩
  | ended =>
    -- The loop completes the pipe when it ends, and no receive waits at a completed one.
    have hcompleted := hsound.source.phased.ended hfill
    simp [hcompleted] at hopen
  | crashed =>
    have hbound := hsound.source.phased.crashed hfill
    omega

/-- Without room for a chunk, a receive that waits is not woken by the fill loop, whatever the peer
sends. -/
theorem Sound.waits_without_room {options : ConnectOptions} {connection later : Connection}
    {receiving : Receiving} {moves : List FillMove} {effects : List Effect}
    (hsound : Sound options connection) (hroom : Bytes.roomBound ≤ options.chunk)
    (hwaits : connection.ReceiveWaits receiving)
    (hrun : connection.run (moves.map .fill) = some (later, effects)) :
    later.ReceiveWaits receiving ∧ later.source.unread = connection.source.unread ∧
      moves.length ≤ 1 := by
  rw [← hsound.chunk] at hroom
  cases moves with
  | nil =>
    cases hrun
    exact ⟨hwaits, rfl, Nat.zero_le 1⟩
  | cons move moves =>
    obtain ⟨next, effect, rest, hstep, hlast, -⟩ := run_cons_eq_some hrun
    obtain ⟨source, htransition, rfl, -⟩ := fill_of_step hstep
    obtain rfl := hsound.source.phased.crashes hroom htransition
    cases moves with
    | nil =>
      cases hlast
      exact ⟨⟨hwaits.call, hwaits.parked, hwaits.unpermitted⟩, rfl, Nat.le_refl 1⟩
    | cons second moves =>
      obtain ⟨last, effect, rest, hstep, -⟩ := run_cons_eq_some hlast
      rw [step_fill_of_stopped rfl] at hstep
      cases hstep

/-- Whatever changes the pipe under a receive that waits, wakes it. -/
theorem ReceiveWaits.wakes {connection next : Connection} {receiving : Receiving} {move : Move}
    {effect : Effect} (hwaits : connection.ReceiveWaits receiving)
    (hstep : connection.step move = some (next, effect)) :
    next.source.pipe.readable = true ∨
      (next.source.pipe.buffer = connection.source.pipe.buffer ∧
        next.source.pipe.completed = connection.source.pipe.completed) := by
  obtain ⟨hcall, hparked, hpermit⟩ := hwaits
  cases transition_of_step hstep with
  | fill htransition =>
    rcases htransition.pipe_extends.permit with hgiven | ⟨hbuffer, hcompleted, -⟩
    · exact .inl hgiven
    · exact .inr ⟨hbuffer, hcompleted⟩
  | receive hpending htransition =>
    obtain rfl : _ = receiving := by simpa [hcall] using hpending.symm
    cases htransition with
    | park hstage _ => simp [hparked] at hstage
    | wake _ hgiven => simp [hgiven] at hpermit
    | _ => cases hparked
  | received hpending htransition =>
    obtain rfl : _ = receiving := by simpa [hcall] using hpending.symm
    cases htransition <;> cases hparked
  | closed hclosing _ => simp [hcall] at hclosing
  | _ => exact .inr ⟨rfl, rfl⟩

/-- Whatever makes space beside a fill loop that waits, wakes it. -/
theorem FillWaits.wakes {connection next : Connection} {move : Move} {effect : Effect}
    (hwaits : connection.FillWaits) (hstep : connection.step move = some (next, effect)) :
    next.source.pipe.writable = true ∨ next.source.pipe.space = connection.source.pipe.space := by
  have hspace : ∀ {pipe : Pipe}, connection.source.pipe.Drains pipe →
      pipe.writable = true ∨ pipe.space = connection.source.pipe.space := by
    intro pipe hdrains
    rcases hdrains.permit with hgiven | ⟨hbuffer, -⟩
    · exact .inl hgiven
    · exact .inr (by simp [Pipe.space, hbuffer, hdrains.capacity])
  cases transition_of_step hstep with
  | fill htransition =>
    obtain ⟨⟨fill, pipe, unread⟩, chunk, cancelled, _⟩ := connection
    obtain ⟨rfl, hpermit⟩ := hwaits
    cases htransition with
    | wake hgiven => simp [hgiven] at hpermit
    | stopWaiting => exact .inr rfl
  | receive _ htransition => exact hspace htransition.drains_of_continues
  | received _ htransition => exact hspace htransition.drains_of_done
  | _ => exact .inr rfl

/-- No wake-up is lost and the two sides never wait for each other, in any run. A receive of a
number of bytes that waits lacks some, and the pipe is empty and open. One up to a delimiter that
waits has searched all of the buffer in vain, and the pipe has room and is open. The fill loop waits
only while there is no space. Every change under a receive that waits wakes it, as every gain of
space wakes the fill loop. And beside a receive that waits, the fill loop asks the peer for bytes
after at most two steps of its own, if it does not wake the receive before. That is so if there is
room for what it reads at a time; otherwise it makes one more move at most, reads nothing and wakes
nobody, so that the receive waits whatever the peer does. -/
theorem no_lost_wakeup {options : ConnectOptions} {stream : Bytes} {start : Connection}
    {moves : List Move} {connection : Connection} {effects : List Effect}
    (hconnect : connect options (.accepted stream) = .ok start)
    (hrun : start.run moves = some (connection, effects)) :
    (∀ n taken, connection.ReceiveWaits (.exact n taken .parked) →
      taken.length < n ∧ connection.source.pipe.buffer = [] ∧
        connection.source.pipe.completed = false) ∧
    (∀ scanner, connection.ReceiveWaits (.until scanner .parked) →
      scanner.scanned = connection.source.pipe.buffer.length ∧
        endOfFirst? scanner.delimiter 0 connection.source.pipe.buffer = none ∧
        connection.source.pipe.buffer.length < options.capacity ∧
        connection.source.pipe.completed = false) ∧
    (connection.FillWaits → connection.source.pipe.space = 0) ∧
    (∀ move next effect, connection.step move = some (next, effect) →
      (∀ receiving, connection.ReceiveWaits receiving → next.source.pipe.readable = true ∨
        (next.source.pipe.buffer = connection.source.pipe.buffer ∧
          next.source.pipe.completed = connection.source.pipe.completed)) ∧
      (connection.FillWaits → next.source.pipe.writable = true ∨
        next.source.pipe.space = connection.source.pipe.space)) ∧
    (∀ receiving, connection.ReceiveWaits receiving →
      ¬ connection.FillWaits ∧
      (options.chunk < Bytes.roomBound → ∃ steps ≤ 2, ∃ later laterEffects,
        connection.run (List.replicate steps (.fill .proceed)) = some (later, laterEffects) ∧
          later.call = connection.call ∧ (later.source.pipe.readable = true ∨ later.Asks)) ∧
      (Bytes.roomBound ≤ options.chunk → ∀ (fillMoves : List FillMove) later laterEffects,
        connection.run (fillMoves.map .fill) = some (later, laterEffects) →
          later.ReceiveWaits receiving ∧ later.source.unread = connection.source.unread ∧
            fillMoves.length ≤ 1)) := by
  have hsound := Sound.of_run hconnect hrun
  refine ⟨?_, ?_, ?_, ?_, ?_⟩
  · intro n taken hwaits
    exact hsound.upToDate hwaits
  · intro scanner hwaits
    have hupToDate := hsound.upToDate hwaits
    rw [← hsound.capacity]
    exact hupToDate
  · intro hwaits
    exact hsound.source.waiting hwaits.waiting hwaits.unpermitted
  · intro move next effect hstep
    exact ⟨fun receiving hwaits => hwaits.wakes hstep, fun hwaits => hwaits.wakes hstep⟩
  · intro receiving hwaits
    exact ⟨hsound.not_fillWaits_of_waits hwaits, fun hroom => hsound.asks_or_wakes hroom hwaits,
      fun hroom _ _ _ => hsound.waits_without_room hroom hwaits⟩

/-- With the least pipe and the least reads, a receive of two bytes takes the first and waits for
the second, which the fill loop asks for. -/
theorem no_lost_wakeup_least :
    ∃ start connection effects,
      connect ⟨.zero, 0, 0, none, ""⟩ (.accepted [1, 2]) = .ok start ∧
      start.run
        [.fill .proceed, .fill .proceed, .fill (.deliver 1), .fill .proceed, .fill .proceed,
          .start (.receive (.exact 2)), .advance, .advance, .advance, .advance, .advance,
          .advance] = some (connection, effects) ∧
      connection.ReceiveWaits (.exact 2 [1] .parked) ∧ connection.source.pipe.buffer = [] ∧
      ¬ connection.FillWaits := by
  obtain ⟨start, ⟨connection, effects⟩, hconnect, hrun, hcall, hpermit⟩ : ∃ start result,
      connect ⟨.zero, 0, 0, none, ""⟩ (.accepted [1, 2]) = .ok start ∧
      start.run
        [.fill .proceed, .fill .proceed, .fill (.deliver 1), .fill .proceed, .fill .proceed,
          .start (.receive (.exact 2)), .advance, .advance, .advance, .advance, .advance,
          .advance] = some result ∧
      result.1.call = some (.receiving (.exact 2 [1] .parked)) ∧
      result.1.source.pipe.readable = false := ⟨_, _, rfl, rfl, rfl, rfl⟩
  have hwaits : connection.ReceiveWaits (.exact 2 [1] .parked) := ⟨hcall, rfl, hpermit⟩
  have h := no_lost_wakeup hconnect hrun
  exact ⟨start, connection, effects, hconnect, hrun, hwaits, (h.1 2 [1] hwaits).2.1,
    (h.2.2.2.2 _ hwaits).1⟩

/-- The byte that a receive waits for is there, but the fill loop had no room for a chunk and makes
no move that could deliver it, or tell of the end of the stream. -/
theorem receive_starves :
    ∃ start connection effects,
      connect ⟨.zero, 1, 9223372036854775808, none, ""⟩ (.accepted [97]) = .ok start ∧
      start.run [.fill .proceed, .start (.receive (.exact 1)), .advance, .advance] =
        some (connection, effects) ∧
      connection.ReceiveWaits (.exact 1 [] .parked) ∧ connection.source.unread = [97] ∧
      connection.cancelled = false ∧ ∀ move, connection.step (.fill move) = none := by
  exact ⟨_, _, _, rfl, rfl, ⟨rfl, rfl, rfl⟩, rfl, rfl, step_fill_of_stopped rfl⟩

end Connection

end CheckHarness
