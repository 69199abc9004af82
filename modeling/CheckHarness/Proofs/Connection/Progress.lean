import CheckHarness.Proofs.Connection.Waiting

namespace CheckHarness

namespace Pipe

/-- A byte in the pipe may still be looked for, taken and reported to the fill loop; a permit may
still wake who waits for it. -/
def weight (pipe : Pipe) : Nat :=
  4 * pipe.buffer.length + 3 * pipe.readable.toNat + 2 * pipe.writable.toNat

/-- Committing bytes adds their weight, and at most one permit of the consumer. -/
theorem weight_commit_le (pipe : Pipe) (data : Bytes) :
    (pipe.commit data).weight ≤ pipe.weight + 4 * data.length + 3 := by
  simp only [weight, commit, List.length_append, Bool.toNat_true]
  omega

theorem weight_complete_le (pipe : Pipe) : pipe.complete.weight ≤ pipe.weight + 3 := by
  simp only [weight, complete, Bool.toNat_true]
  omega

theorem weight_pollReadable {pipe : Pipe} (hpermit : pipe.readable = true) :
    pipe.pollReadable.2.weight + 3 = pipe.weight := by
  simp only [weight, pollReadable, hpermit, Bool.toNat_true, Bool.toNat_false]
  omega

theorem weight_pollWritable {pipe : Pipe} (hpermit : pipe.writable = true) :
    pipe.pollWritable.2.weight + 2 = pipe.weight := by
  simp [weight, pollWritable, hpermit]

/-- Taking bytes makes the pipe lighter, though the producer is told of it. -/
theorem weight_take_lt {pipe : Pipe} {n : Nat} (hn : 0 < n) (hbuffer : pipe.buffer ≠ []) :
    (pipe.take n).2.weight + 2 ≤ pipe.weight := by
  have hpos := List.length_pos_iff.mpr hbuffer
  have hwritable := Bool.toNat_le (pipe.take n).2.writable
  simp only [weight, take, List.length_drop] at hwritable ⊢
  omega

end Pipe

namespace Fill

/-- What the fill loop has still to do before it waits for space or for the peer. -/
def rank : Fill → Nat
  | .starting => 7
  | .checking => 6
  | .waiting | .reading _ => 5
  | .finishing => 4
  | .holding _ => 1
  | .ended | .crashed => 0

def State.weight (state : State) : Nat :=
  13 * state.unread.length + 13 * state.fill.held.length + state.pipe.weight + state.fill.rank

/-- The fill loop uses up something in every step. -/
theorem Transition.weight_lt {chunk : Nat} {cancelled : Bool} {state next : State}
    {move : FillMove} (hsound : Sound chunk state)
    (htransition : Transition chunk cancelled state move next) : next.weight < state.weight := by
  cases htransition with
  | begin | crash | findSpace | findFull | readError | stopWaiting | stopReading | streamEnd =>
    simp only [State.weight, held, rank]
    omega
  | wake hpermit =>
    have hweight := Pipe.weight_pollWritable hpermit
    simp only [State.weight, held, rank]
    omega
  | @commit data pipe unread =>
    have hpos := List.length_pos_iff.mpr (hsound.holding data rfl)
    have hweight := pipe.weight_commit_le data
    simp only [State.weight, held, rank, List.length_nil]
    omega
  | @complete pipe unread =>
    have hweight := pipe.weight_complete_le
    simp only [State.weight, held, rank]
    omega
  | deliver hn hwant hunread =>
    simp only [State.weight, held, rank, List.length_take, List.length_drop, List.length_nil]
    omega

end Fill

namespace Receiving

/-- What a receive has still to do before it waits. -/
def rank (receiving : Receiving) : Nat :=
  match receiving.stage with
  | .looking => 3
  | .taking _ | .parking => 2
  | .parked => 1

theorem rank_pos (receiving : Receiving) : 0 < receiving.rank := by
  unfold rank
  split <;> omega

theorem rank_withStage_looking (receiving : Receiving) :
    (receiving.withStage .looking).rank = 3 := by
  simp [rank, withStage_stage]

theorem rank_withStage_parked (receiving : Receiving) :
    (receiving.withStage .parked).rank = 1 := by
  simp [rank, withStage_stage]

/-- A receive takes a step unless it waits without a permit. -/
theorem step_isSome_or_parked (receiving : Receiving) (pipe : Pipe) :
    (∃ progress, receiving.step pipe = some progress) ∨
      (receiving.stage = .parked ∧ pipe.readable = false) := by
  unfold step
  split
  · exact .inl ⟨_, rfl⟩
  · exact .inl ⟨_, rfl⟩
  · split <;> exact .inl ⟨_, rfl⟩
  · rename_i hparked
    split
    · exact .inl ⟨_, rfl⟩
    · rename_i hpermit
      exact .inr ⟨hparked, by simpa using hpermit⟩

namespace Transition

variable {pipe nextPipe : Pipe} {receiving next : Receiving}

/-- A receive uses up something in every step. -/
theorem weight_lt_of_continues (hsound : receiving.Sound pipe)
    (htransition : Transition pipe receiving (.continues next nextPipe)) :
    nextPipe.weight + next.rank < pipe.weight + receiving.rank := by
  cases htransition with
  | exactFind | exactPark | untilFind | untilPark =>
    simp only [rank, stage]
    omega
  | exactTake =>
    obtain ⟨rfl, hshort, hbuffer⟩ := hsound.consistent
    have hweight := Pipe.weight_take_lt (Nat.sub_pos_of_lt hshort) hbuffer
    simp only [rank, stage]
    omega
  | park hstage _ =>
    rw [rank_withStage_parked]
    simp only [rank, hstage]
    omega
  | wake _ hpermit =>
    have hweight := Pipe.weight_pollReadable hpermit
    have hpos := receiving.rank_pos
    rw [rank_withStage_looking]
    omega

theorem weight_lt_of_done {data : Bytes} (hsound : receiving.Sound pipe)
    (htransition : Transition pipe receiving (.done data nextPipe)) :
    nextPipe.weight < pipe.weight + receiving.rank := by
  cases htransition with
  | exactDone =>
    simp only [rank, stage]
    omega
  | @untilTake scanner index =>
    obtain ⟨_, hfound⟩ := hsound.consistent
    have hdelimiter := List.length_pos_iff.mpr scanner.delimiter_ne_nil
    have hle := endOfFirst?_le_length scanner.delimiter_ne_nil hfound
    have hge := length_le_endOfFirst? scanner.delimiter_ne_nil hfound
    have hbuffer : pipe.buffer ≠ [] := by
      rw [← List.length_pos_iff]
      omega
    have hindex : 0 < index := by omega
    have hweight := Pipe.weight_take_lt hindex hbuffer
    simp only [rank, stage]
    omega

end Transition

end Receiving

/-- What a pending call has still to do before it waits; only receives are counted. -/
def Call.rank : Call → Nat
  | .receiving pending => pending.rank
  | _ => 0

/-- A call has at most three steps to take before it waits. -/
theorem Command.rank_of_call? {command : Command} {call : Call}
    (hcall : command.call? = some call) : call.rank ≤ 3 := by
  cases command with
  | send data =>
    cases hcall
    exact Nat.zero_le 3
  | receive receive =>
    cases receive with
    | exact n =>
      cases hcall
      exact Nat.le_refl 3
    | «until» delimiter =>
      obtain ⟨scanner, -, rfl⟩ := Option.map_eq_some_iff.mp hcall
      exact Nat.le_refl 3
  | _ => cases hcall

namespace Connection

/-- What there is to do on a connection, as far as the fill loop and a pending receive go. -/
def weight (connection : Connection) : Nat :=
  connection.source.weight + connection.call.elim 0 Call.rank

/-- At the start the stream is what there is to use up. -/
theorem weight_of_connect {options : ConnectOptions} {stream : Bytes} {start : Connection}
    (hconnect : connect options (.accepted stream) = .ok start) :
    start.weight = 13 * stream.length + 7 := by
  obtain ⟨-, rfl⟩ := connect_accepted_eq_ok_iff.mp hconnect
  simp [weight, fresh, Fill.State.weight, Fill.held, Fill.rank, Pipe.weight, Pipe.empty]

/-- A new call adds little to do. -/
theorem weight_start_le {connection next : Connection} {command : Command} {effect : Effect}
    (hstep : connection.step (.start command) = some (next, effect)) :
    next.weight ≤ connection.weight + 3 := by
  cases transition_of_step hstep with
  | start hidle hcall _ _ _ =>
    have hrank := Command.rank_of_call? hcall
    simp only [weight, hidle, Option.elim_none, Option.elim_some]
    omega
  | startCancelled hidle _ _ _ => simp [weight, fail, hidle]
  | close hidle _ => simp [weight, hidle, Call.rank]
  | fails _ _ hmove => simp at hmove
  | _ => exact Nat.le_add_right _ _

/-- A step of the fill loop makes the connection lighter. -/
theorem weight_fill_lt {options : ConnectOptions} {connection next : Connection} {move : FillMove}
    {effect : Effect} (hsound : Sound options connection)
    (hstep : connection.step (.fill move) = some (next, effect)) :
    next.weight < connection.weight := by
  obtain ⟨source, htransition, rfl, -⟩ := fill_of_step hstep
  have hweight := htransition.weight_lt hsound.source
  simp only [weight]
  omega

theorem weight_advance_lt {options : ConnectOptions} {connection next : Connection}
    {receiving : Receiving} {effect : Effect} (hsound : Sound options connection)
    (hcall : connection.call = some (.receiving receiving))
    (hstep : connection.step .advance = some (next, effect)) : next.weight < connection.weight := by
  have hreceiving := hsound.receiving receiving hcall
  cases receives_of_step hcall hstep with
  | receive htransition =>
    have hweight := htransition.weight_lt_of_continues hreceiving
    simp only [weight, hcall, Option.elim_some, Call.rank, Fill.State.weight]
    omega
  | received htransition =>
    have hweight := htransition.weight_lt_of_done hreceiving
    simp only [weight, hcall, Option.elim_some, Option.elim_none, Call.rank, Fill.State.weight]
    omega
  | broken =>
    have hrank := receiving.rank_pos
    simp only [weight, fail, hcall, Option.elim_some, Option.elim_none, Call.rank]
    omega

/-- A pending receive goes on unless it waits. -/
theorem advances_or_waits {connection : Connection} {receiving : Receiving}
    (hcall : connection.call = some (.receiving receiving))
    (hcancelled : connection.cancelled = false) :
    (∃ result, connection.step .advance = some result) ∨ connection.ReceiveWaits receiving := by
  rcases receiving.step_isSome_or_parked connection.source.pipe with
    ⟨progress, hstep⟩ | ⟨hparked, hpermit⟩
  · have hadvance : connection.step .advance = connection.advance (.receiving receiving) := by
      simp [step, hcall]
    rw [hadvance, advance, if_neg (by simp [hcancelled]), hstep]
    cases progress <;> exact .inl ⟨_, rfl⟩
  · exact .inr ⟨hcall, hparked, hpermit⟩

/-- While a receive waits, the fill loop goes on, be it with what the peer sends. -/
theorem Sound.exists_fill_step {options : ConnectOptions} {connection : Connection}
    {receiving : Receiving} (hsound : Sound options connection)
    (hroom : options.chunk < Bytes.roomBound) (hwaits : connection.ReceiveWaits receiving) :
    ∃ move result, connection.step (.fill move) = some result ∧ move ≠ .readError := by
  obtain ⟨steps, _, later, effects, hrun, _, hnext⟩ := hsound.asks_or_wakes hroom hwaits
  cases steps with
  | zero =>
    cases hrun
    obtain ⟨want, hfill, hwant⟩ := hnext.resolve_left (by simp [hwaits.unpermitted])
    cases hunread : connection.source.unread with
    | nil =>
      have hend := step_fill (Fill.step_streamEnd hfill hunread)
      exact ⟨.streamEnd, _, hend, by simp⟩
    | cons byte rest =>
      have hdeliver := step_fill (Fill.step_deliver_one hfill hwant (by simp [hunread]))
      exact ⟨.deliver 1, _, hdeliver, by simp⟩
  | succ steps =>
    obtain ⟨next, effect, _, hstep, _⟩ := run_cons_eq_some hrun
    exact ⟨.proceed, (next, effect), hstep, by simp⟩

/-- The fill loop of a cancelled connection comes to a stop by steps of its own. -/
theorem exists_fill_step_of_cancelled {connection : Connection}
    (hcancelled : connection.cancelled = true)
    (hfill : ¬ connection.source.fill.stopped = true) :
    ∃ move result, connection.step (.fill move) = some result ∧ move ≠ .streamEnd ∧
      move ≠ .readError := by
  have hproceed : ∀ source, Fill.step connection.chunk connection.cancelled connection.source
      .proceed = some source → ∃ move result, connection.step (.fill move) = some result ∧
        move ≠ .streamEnd ∧ move ≠ .readError := by
    intro source hsource
    exact ⟨.proceed, _, step_fill hsource, by simp, by simp⟩
  cases hstate : connection.source.fill with
  | starting =>
    by_cases hchunk : connection.chunk < Bytes.roomBound
    · exact hproceed _ (Fill.step_of_starting hstate hchunk)
    · exact hproceed { connection.source with fill := .crashed }
        (by simp [Fill.step, hstate, hchunk])
  | checking =>
    by_cases hspace : 0 < connection.source.pipe.space
    · exact hproceed _ (Fill.step_of_checking hstate hspace)
    · exact hproceed { connection.source with fill := .waiting }
        (by simp [Fill.step, hstate, hspace])
  | holding data => exact hproceed _ (Fill.step_of_holding hstate)
  | finishing => exact hproceed _ (Fill.step_of_finishing hstate)
  | waiting | reading =>
    -- These two wait for others, and for the cancellation.
    have hnotice : Fill.step connection.chunk connection.cancelled connection.source .notice =
        some { connection.source with fill := .finishing } := by
      simp [Fill.step, hcancelled, hstate]
    exact ⟨.notice, _, step_fill hnotice, by simp, by simp⟩
  | ended | crashed =>
    rw [hstate] at hfill
    exact absurd rfl hfill

end Connection

end CheckHarness
