import CheckHarness.Proofs.Connection.Conservation

namespace CheckHarness

namespace Fill

/-- What a read of up to `want` bytes may come to: no more bytes than asked for, and none only if
none were asked for or the stream has ended. -/
structure Returns (want : Nat) (unread : Bytes) (count : Nat) : Prop where
  le_want : count ≤ want
  le_unread : count ≤ unread.length
  nothing : count = 0 → want = 0 ∨ unread = []

/-- How the fill loop takes a read of so many bytes: none mean that the stream has ended. -/
def moveOfRead (count : Nat) : FillMove :=
  if count = 0 then .streamEnd else .deliver count

namespace Sound

variable {chunk want : Nat} {state : State}

/-- A read asks for something, and for no more than there is room for. -/
theorem want_le (hsound : Sound chunk state) (hfill : state.fill = .reading want) :
    0 < want ∧ want ≤ min state.pipe.space chunk := by
  obtain ⟨hpos, hchunk⟩ := hsound.reading want hfill
  have hfits := hsound.fits
  simp only [hfill, claimed] at hfits
  refine ⟨hpos, Nat.le_min.mpr ⟨?_, hchunk⟩⟩
  unfold Pipe.space
  omega

/-- What was read still fits when it is committed. -/
theorem held_le_space (hsound : Sound chunk state) {data : Bytes}
    (hfill : state.fill = .holding data) : data ≠ [] ∧ data.length ≤ state.pipe.space := by
  have hfits := hsound.fits
  simp only [hfill, claimed] at hfits
  refine ⟨hsound.holding data hfill, ?_⟩
  unfold Pipe.space
  omega

/-- A read that comes to nothing has met the end of the stream. -/
theorem unread_eq_nil (hsound : Sound chunk state) (hfill : state.fill = .reading want)
    {count : Nat} (hreturns : Returns want state.unread count) (hcount : count = 0) :
    state.unread = [] := by
  have hpos := (hsound.want_le hfill).1
  exact (hreturns.nothing hcount).resolve_left (by omega)

/-- Every read is taken up by the fill loop. -/
theorem exists_step_of_read (hsound : Sound chunk state) (hfill : state.fill = .reading want)
    {count : Nat} (hreturns : Returns want state.unread count) (cancelled : Bool) :
    ∃ next, step chunk cancelled state (moveOfRead count) = some next := by
  unfold moveOfRead
  split
  · rename_i hcount
    exact ⟨_, step_streamEnd hfill (hsound.unread_eq_nil hfill hreturns hcount)⟩
  · rename_i hcount
    have hdeliver : 0 < count ∧ count ≤ want ∧ count ≤ state.unread.length :=
      ⟨by omega, hreturns.le_want, hreturns.le_unread⟩
    simp only [step, hfill, if_pos hdeliver]
    exact ⟨_, rfl⟩

end Sound

/-- Nothing comes to the pipe any more: it stays completed, and only less and less is in it. -/
structure Settled (state next : State) : Prop where
  completed : next.pipe.completed = true
  buffer : next.pipe.buffer <:+ state.pipe.buffer
  unread : next.unread = state.unread

namespace Settled

variable {state middle next : State}

theorem refl (hcompleted : state.pipe.completed = true) : Settled state state :=
  ⟨hcompleted, List.suffix_refl _, rfl⟩

theorem trans (hfirst : Settled state middle) (hsecond : Settled middle next) :
    Settled state next :=
  ⟨hsecond.completed, hsecond.buffer.trans hfirst.buffer, hsecond.unread.trans hfirst.unread⟩

theorem drains (hcompleted : state.pipe.completed = true) {pipe : Pipe}
    (hdrains : state.pipe.Drains pipe) : Settled state { state with pipe } :=
  ⟨hdrains.completed.trans hcompleted, hdrains.buffer, rfl⟩

end Settled

end Fill

namespace Connection

namespace Sound

variable {options : ConnectOptions} {connection next : Connection}

/-- The fill loop of a completed pipe has stopped. -/
theorem step_fill_of_completed (hsound : Sound options connection)
    (hcompleted : connection.source.pipe.completed = true) (move : FillMove) :
    connection.step (.fill move) = none :=
  Connection.step_fill_of_stopped (hsound.source.phased.stopped hcompleted) move

/-- A move does not put anything into a completed pipe. -/
theorem settled_step {move : Move} {effect : Effect} (hsound : Sound options connection)
    (hcompleted : connection.source.pipe.completed = true)
    (hstep : connection.step move = some (next, effect)) :
    Fill.Settled connection.source next.source := by
  cases transition_of_step hstep with
  | fill => simp [hsound.step_fill_of_completed hcompleted] at hstep
  | receive _ htransition => exact .drains hcompleted htransition.drains_of_continues
  | received _ htransition => exact .drains hcompleted htransition.drains_of_done
  | closed => exact ⟨rfl, List.suffix_refl _, rfl⟩
  | _ => exact .refl hcompleted

theorem settled_run {moves : List Move} {effects : List Effect} (hsound : Sound options connection)
    (hcompleted : connection.source.pipe.completed = true)
    (hrun : connection.run moves = some (next, effects)) :
    Fill.Settled connection.source next.source := by
  have hmove : ∀ {middle move last effect},
      Sound options middle ∧ Fill.Settled connection.source middle.source →
        middle.step move = some (last, effect) →
          Sound options last ∧ Fill.Settled connection.source last.source :=
    fun ⟨hmiddle, hsettled⟩ hstep =>
      ⟨hmiddle.step hstep, hsettled.trans (hmiddle.settled_step hsettled.completed hstep)⟩
  exact (run_preserves hmove hrun ⟨hsound, .refl hcompleted⟩).2

end Sound

/-- Unless reading fails or is cancelled, the fill loop stops only when it has read everything. -/
theorem unread_eq_nil_of_stopped {options : ConnectOptions} {stream : Bytes} {start : Connection}
    {moves : List Move} {connection : Connection} {effects : List Effect}
    (hconnect : connect options (.accepted stream) = .ok start)
    (hrun : start.run moves = some (connection, effects)) (hread : .fill .readError ∉ moves) (hcancelled : connection.cancelled = false)
    (hstopped : connection.source.fill = .finishing ∨ connection.source.fill = .ended) :
    connection.source.unread = [] := by
  revert hread hcancelled hstopped
  refine run_induction (P := fun moves connection => .fill .readError ∉ moves →
    connection.cancelled = false →
      connection.source.fill = .finishing ∨ connection.source.fill = .ended →
        connection.source.unread = []) ?_ ?_ hrun
  · obtain ⟨-, rfl⟩ := connect_accepted_eq_ok_iff.mp hconnect
    simp [fresh]
  · intro moves effects connection move next effect _ ih hstep hread hcancelled hstopped
    simp only [List.mem_append, List.mem_singleton, not_or] at hread
    have hbefore : connection.cancelled = false := by
      by_contra hnot
      simp [cancelled_step hstep (by simpa using hnot)] at hcancelled
    have hdrained := ih hread.1 hbefore
    cases transition_of_step hstep with
    | fill htransition =>
      rw [hbefore] at htransition
      refine htransition.drained (fun hmove => ?_) hdrained hstopped
      exact absurd (congrArg Move.fill hmove).symm hread.2
    | _ => exact hdrained hstopped

/-- The pipe of a connection in any run. It never holds more than its capacity. A read asks for at
least one byte and for no more than there is space for or than a chunk has, so one that returns
nothing has met the end of the stream; and what it returned still fits when it is committed. Once
the pipe is completed, the fill loop makes no move any more, and however the run goes on, the pipe
stays completed with ever less in it. Then the bytes returned, those that the pending call has taken
and those in the buffer are all that was read of the stream, and if neither reading failed nor the
connection was cancelled, they are the whole stream. -/
theorem buffer_bounded_completion_final {options : ConnectOptions} {stream : Bytes}
    {start : Connection} {moves : List Move} {connection : Connection} {effects : List Effect}
    (hconnect : connect options (.accepted stream) = .ok start)
    (hrun : start.run moves = some (connection, effects)) :
    connection.source.pipe.buffer.length ≤ max options.bufferCapacity.toNat 1 ∧
    (∀ want, connection.source.fill = .reading want →
      (1 ≤ want ∧ want ≤ min connection.source.pipe.space (max options.readChunkSize.toNat 1)) ∧
      ∀ count, Fill.Returns want connection.source.unread count →
        (count = 0 → connection.source.unread = []) ∧
        ∃ result, connection.step (.fill (Fill.moveOfRead count)) = some result) ∧
    (∀ data, connection.source.fill = .holding data →
      data ≠ [] ∧ data.length ≤ connection.source.pipe.space) ∧
    (connection.source.pipe.completed = true →
      (∀ move, connection.step (.fill move) = none) ∧
      (∀ later last after, connection.run later = some (last, after) →
        last.source.pipe.completed = true ∧
          last.source.pipe.buffer <:+ connection.source.pipe.buffer ∧
          last.source.unread = connection.source.unread) ∧
      (.abandon ∉ moves → connection.failed = false →
        received effects ++ connection.taken ++ connection.source.pipe.buffer ++
          connection.source.unread = stream) ∧
      (.fill .readError ∉ moves → connection.cancelled = false → connection.source.unread = [])) := by
  have hsound := Sound.of_run hconnect hrun
  refine ⟨?_, ?_, fun _ => hsound.source.held_le_space, ?_⟩
  · have hcapacity := hsound.capacity ▸ hsound.source.buffer_length_le
    exact hcapacity
  · intro want hfill
    have hwant := hsound.source.want_le hfill
    rw [hsound.chunk] at hwant
    refine ⟨hwant, fun count hreturns => ⟨hsound.source.unread_eq_nil hfill hreturns, ?_⟩⟩
    obtain ⟨source, hsource⟩ :=
      hsound.source.exists_step_of_read hfill hreturns connection.cancelled
    exact ⟨_, step_fill hsource⟩
  · intro hcompleted
    have hheld := Fill.held_of_stopped (hsound.source.phased.stopped hcompleted)
    refine ⟨hsound.step_fill_of_completed hcompleted, ?_, ?_, ?_⟩
    · intro later last after hlater
      have hsettled := hsound.settled_run hcompleted hlater
      exact ⟨hsettled.completed, hsettled.buffer, hsettled.unread⟩
    · intro hawaited husable
      have hconserves :=
        (Conserves.of_connect hconnect).of_run (.of_connect hconnect) hawaited hrun
      have hwhole := hconserves.whole husable
      simpa [Fill.State.ahead, hheld] using hwhole
    · intro hread hcancelled
      have hended := (hsound.stops.completed hcompleted).resolve_right (by simp [hcancelled])
      exact unread_eq_nil_of_stopped hconnect hrun hread hcancelled (.inr hended)

/-- One byte is taken while another is being read, so the space that the read counts on is less than
there is. The stream then ends with two bytes in the buffer. -/
def takenWhileReading : List Move :=
  [.fill .proceed, .fill .proceed, .fill (.deliver 2), .fill .proceed, .start (.receive (.exact 1)),
    .fill .proceed, .advance, .advance, .fill (.deliver 1), .advance, .fill .proceed,
    .fill .proceed, .fill .streamEnd, .fill .proceed]

/-- A run that takes from the pipe while a read is under way. -/
theorem buffer_bounded_completion_final_taken :
    ∃ start connection effects,
      connect ⟨.zero, 3, 2, none, ""⟩ (.accepted [1, 2, 3]) = .ok start ∧
      start.run takenWhileReading = some (connection, effects) ∧
      connection.source.pipe.completed = true ∧ connection.source.pipe.buffer.length ≤ 3 ∧
      (∀ move, connection.step (.fill move) = none) ∧
      received effects ++ connection.taken ++ connection.source.pipe.buffer = [1, 2, 3] := by
  obtain ⟨start, ⟨connection, effects⟩, hconnect, hrun, hcompleted, husable, hcancelled⟩ :
      ∃ start result, connect ⟨.zero, 3, 2, none, ""⟩ (.accepted [1, 2, 3]) = .ok start ∧
        start.run takenWhileReading = some result ∧ result.1.source.pipe.completed = true ∧
        result.1.failed = false ∧ result.1.cancelled = false := ⟨_, _, rfl, rfl, rfl, rfl, rfl⟩
  have h := buffer_bounded_completion_final hconnect hrun
  obtain ⟨hnone, -, hwhole, hunread⟩ := h.2.2.2 hcompleted
  have hstream := hwhole (by decide) husable
  rw [hunread (by decide) hcancelled, List.append_nil] at hstream
  exact ⟨start, connection, effects, hconnect, hrun, hcompleted, h.1, hnone, hstream⟩

end Connection

end CheckHarness
