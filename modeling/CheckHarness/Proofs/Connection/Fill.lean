import CheckHarness.Connection.Fill
import CheckHarness.Proofs.Connection.Pipe

namespace CheckHarness

namespace Fill

/-- The moves of the fill loop, case by case. -/
inductive Transition (chunk : Nat) (cancelled : Bool) : State → FillMove → State → Prop where
  | begin {pipe unread} (hchunk : chunk < Bytes.roomBound) :
    Transition chunk cancelled ⟨.starting, pipe, unread⟩ .proceed ⟨.checking, pipe, unread⟩
  | crash {pipe unread} (hchunk : Bytes.roomBound ≤ chunk) :
    Transition chunk cancelled ⟨.starting, pipe, unread⟩ .proceed ⟨.crashed, pipe, unread⟩
  | findSpace {pipe unread} (hspace : 0 < pipe.space) :
    Transition chunk cancelled ⟨.checking, pipe, unread⟩ .proceed
      ⟨.reading (min pipe.space chunk), pipe, unread⟩
  | findFull {pipe unread} (hspace : pipe.space = 0) :
    Transition chunk cancelled ⟨.checking, pipe, unread⟩ .proceed ⟨.waiting, pipe, unread⟩
  | wake {pipe unread} (hpermit : pipe.writable = true) :
    Transition chunk cancelled ⟨.waiting, pipe, unread⟩ .proceed
      ⟨.checking, pipe.pollWritable.2, unread⟩
  | commit {data pipe unread} :
    Transition chunk cancelled ⟨.holding data, pipe, unread⟩ .proceed
      ⟨.checking, pipe.commit data, unread⟩
  | complete {pipe unread} :
    Transition chunk cancelled ⟨.finishing, pipe, unread⟩ .proceed ⟨.ended, pipe.complete, unread⟩
  | deliver {want n pipe unread} (hn : 0 < n) (hwant : n ≤ want) (hunread : n ≤ unread.length) :
    Transition chunk cancelled ⟨.reading want, pipe, unread⟩ (.deliver n)
      ⟨.holding (unread.take n), pipe, unread.drop n⟩
  | streamEnd {want pipe} :
    Transition chunk cancelled ⟨.reading want, pipe, []⟩ .streamEnd ⟨.finishing, pipe, []⟩
  | readError {want pipe unread} :
    Transition chunk cancelled ⟨.reading want, pipe, unread⟩ .readError ⟨.finishing, pipe, unread⟩
  | stopWaiting {pipe unread} (hcancelled : cancelled = true) :
    Transition chunk cancelled ⟨.waiting, pipe, unread⟩ .notice ⟨.finishing, pipe, unread⟩
  | stopReading {want pipe unread} (hcancelled : cancelled = true) :
    Transition chunk cancelled ⟨.reading want, pipe, unread⟩ .notice ⟨.finishing, pipe, unread⟩

/-- Every step of the fill loop is one of its transitions. -/
theorem transition_of_step {chunk : Nat} {cancelled : Bool} {state next : State} {move : FillMove}
    (hstep : step chunk cancelled state move = some next) :
    Transition chunk cancelled state move next := by
  obtain ⟨fill, pipe, unread⟩ := state
  cases move with
  | proceed =>
    cases fill with
    | starting =>
      by_cases hchunk : chunk < Bytes.roomBound
      · simp only [step, if_pos hchunk, Option.some.injEq] at hstep
        subst next
        exact .begin hchunk
      · simp only [step, if_neg hchunk, Option.some.injEq] at hstep
        subst next
        exact .crash (Nat.le_of_not_lt hchunk)
    | checking =>
      by_cases hspace : 0 < pipe.space
      · simp only [step, if_pos hspace, Option.some.injEq] at hstep
        subst next
        exact .findSpace hspace
      · simp only [step, if_neg hspace, Option.some.injEq] at hstep
        subst next
        exact .findFull (by omega)
    | waiting =>
      simp only [step, Option.ite_none_right_eq_some, Option.some.injEq] at hstep
      obtain ⟨hpermit, rfl⟩ := hstep
      exact .wake hpermit
    | reading want => cases hstep
    | holding data =>
      cases hstep
      exact .commit
    | finishing =>
      cases hstep
      exact .complete
    | ended | crashed => cases hstep
  | deliver n =>
    cases fill with
    | reading want =>
      simp only [step, Option.ite_none_right_eq_some, Option.some.injEq] at hstep
      obtain ⟨⟨hn, hwant, hunread⟩, rfl⟩ := hstep
      exact .deliver hn hwant hunread
    | _ => cases hstep
  | streamEnd =>
    cases fill with
    | reading want =>
      simp only [step, Option.ite_none_right_eq_some, Option.some.injEq] at hstep
      obtain ⟨rfl, rfl⟩ := hstep
      exact .streamEnd
    | _ => cases hstep
  | readError =>
    cases fill with
    | reading want =>
      cases hstep
      exact .readError
    | _ => cases hstep
  | notice =>
    cases fill with
    | waiting =>
      simp only [step, Option.ite_none_right_eq_some, Option.some.injEq] at hstep
      obtain ⟨hcancelled, rfl⟩ := hstep
      exact .stopWaiting hcancelled
    | reading want =>
      simp only [step, Option.ite_none_right_eq_some, Option.some.injEq] at hstep
      obtain ⟨hcancelled, rfl⟩ := hstep
      exact .stopReading hcancelled
    | _ => simp [step] at hstep

theorem step_of_starting {chunk : Nat} {cancelled : Bool} {state : State}
    (hfill : state.fill = .starting) (hchunk : chunk < Bytes.roomBound) :
    step chunk cancelled state .proceed = some { state with fill := .checking } := by
  simp [step, hfill, hchunk]

theorem step_of_checking {chunk : Nat} {cancelled : Bool} {state : State}
    (hfill : state.fill = .checking) (hspace : 0 < state.pipe.space) :
    step chunk cancelled state .proceed =
      some { state with fill := .reading (min state.pipe.space chunk) } := by
  simp [step, hfill, hspace]

theorem step_of_waiting {chunk : Nat} {cancelled : Bool} {state : State}
    (hfill : state.fill = .waiting) (hpermit : state.pipe.writable = true) :
    step chunk cancelled state .proceed =
      some { state with fill := .checking, pipe := state.pipe.pollWritable.2 } := by
  simp [step, hfill, hpermit]

theorem step_of_holding {chunk : Nat} {cancelled : Bool} {state : State} {data : Bytes}
    (hfill : state.fill = .holding data) :
    step chunk cancelled state .proceed =
      some { state with fill := .checking, pipe := state.pipe.commit data } := by
  simp [step, hfill]

theorem step_of_finishing {chunk : Nat} {cancelled : Bool} {state : State}
    (hfill : state.fill = .finishing) :
    step chunk cancelled state .proceed =
      some { state with fill := .ended, pipe := state.pipe.complete } := by
  simp [step, hfill]

theorem step_streamEnd {chunk want : Nat} {cancelled : Bool} {state : State}
    (hfill : state.fill = .reading want) (hunread : state.unread = []) :
    step chunk cancelled state .streamEnd = some { state with fill := .finishing } := by
  simp [step, hfill, hunread]

theorem step_deliver_one {chunk want : Nat} {cancelled : Bool} {state : State}
    (hfill : state.fill = .reading want) (hwant : 0 < want) (hunread : state.unread ≠ []) :
    step chunk cancelled state (.deliver 1) =
      some { state with fill := .holding (state.unread.take 1), unread := state.unread.drop 1 } := by
  have hlength := List.length_pos_iff.mpr hunread
  simp only [step, hfill]
  rw [if_pos ⟨Nat.one_pos, hwant, hlength⟩]

/-- The bytes that were read and are not committed yet. -/
def held : Fill → Bytes
  | .holding data => data
  | _ => []

/-- How much of the pipe's space the fill loop counts on. -/
def claimed : Fill → Nat
  | .reading want => want
  | .holding data => data.length
  | _ => 0

/-- Whether the fill loop has room for a chunk, so that it may come to read. -/
def begun : Fill → Bool
  | .starting | .crashed => false
  | _ => true

/-- Everything of the peer's stream that the consumer has not taken. -/
def State.ahead (state : State) : Bytes :=
  state.pipe.buffer ++ state.fill.held ++ state.unread

namespace Transition

variable {chunk : Nat} {cancelled : Bool} {state next : State} {move : FillMove}

/-- The loop only adds to the pipe. -/
theorem pipe_extends (htransition : Transition chunk cancelled state move next) :
    state.pipe.Extends next.pipe := by
  cases htransition with
  | wake => exact .pollWritable _
  | commit => exact .commit _ _
  | complete => exact .complete _
  | _ => exact .refl _

/-- A fill loop that has stopped makes no moves. -/
theorem stopped_eq_false (htransition : Transition chunk cancelled state move next) :
    state.fill.stopped = false := by
  cases htransition <;> rfl

/-- Only the end of the loop completes the pipe. -/
theorem completed_eq_or_ended (htransition : Transition chunk cancelled state move next) :
    next.pipe.completed = state.pipe.completed ∨ next.fill = .ended := by
  cases htransition with
  | complete => exact .inr rfl
  | _ => exact .inl rfl

/-- No move loses, repeats or reorders bytes of the stream. -/
theorem ahead_eq (htransition : Transition chunk cancelled state move next) :
    next.ahead = state.ahead := by
  cases htransition with
  | commit => simp [State.ahead, held, Pipe.commit]
  | deliver => simp [State.ahead, held]
  | _ => rfl

/-- Unless the fill loop is cancelled, it stops only at the end of the stream, if reading fails only
there. -/
theorem drained (htransition : Transition chunk false state move next)
    (hend : move = .readError → state.unread = [])
    (hdrained : state.fill = .finishing ∨ state.fill = .ended → state.unread = [])
    (hstopped : next.fill = .finishing ∨ next.fill = .ended) : next.unread = [] := by
  cases htransition with
  | complete => exact hdrained (.inl rfl)
  | streamEnd => rfl
  | readError => exact hend rfl
  | stopWaiting hcancelled | stopReading hcancelled => cases hcancelled
  | _ => simp at hstopped

end Transition

section Stopped

variable {chunk : Nat} {cancelled : Bool} {state : State}

theorem step_of_stopped (hstopped : state.fill.stopped = true) (move : FillMove) :
    step chunk cancelled state move = none := by
  cases hstep : step chunk cancelled state move with
  | none => rfl
  | some next =>
    rw [(transition_of_step hstep).stopped_eq_false] at hstopped
    cases hstopped

theorem held_of_stopped (hstopped : state.fill.stopped = true) : state.fill.held = [] := by
  cases hfill : state.fill with
  | holding data => simp [hfill, stopped] at hstopped
  | _ => rfl

end Stopped

/-- What it tells about the pipe and about the size of a chunk where the fill loop stands. Nothing
is in the pipe unless there was room for a chunk, and only a fill loop that has stopped may have
left a completed pipe. -/
structure Phased (chunk : Nat) (state : State) : Prop where
  ended : state.fill = .ended → state.pipe.completed = true
  stopped : state.pipe.completed = true → state.fill.stopped = true
  begun : state.fill.begun = true → chunk < Bytes.roomBound
  crashed : state.fill = .crashed → Bytes.roomBound ≤ chunk
  unbegun : state.fill.begun = false → state.pipe.buffer = []

namespace Phased

variable {chunk : Nat} {cancelled : Bool} {state next : State} {move : FillMove}

theorem start (chunk capacity : Nat) (stream : Bytes) :
    Phased chunk ⟨.starting, .empty capacity, stream⟩ where
  ended := by simp
  stopped := by simp [Pipe.empty]
  begun := by simp [Fill.begun]
  crashed := by simp
  unbegun := fun _ => rfl

theorem transition (hphased : Phased chunk state)
    (htransition : Transition chunk cancelled state move next) : Phased chunk next where
  ended := by
    cases htransition with
    | complete => exact fun _ => rfl
    | _ => nofun
  stopped := by
    intro hcompleted
    rcases htransition.completed_eq_or_ended with hsame | hended
    · have hstopped := hphased.stopped (hsame ▸ hcompleted)
      rw [htransition.stopped_eq_false] at hstopped
      cases hstopped
    · rw [hended]
      rfl
  begun := by
    cases htransition with
    | begin hchunk => exact fun _ => hchunk
    | crash => nofun
    | _ => exact fun _ => hphased.begun rfl
  crashed := by
    cases htransition with
    | crash hchunk => exact fun _ => hchunk
    | _ => nofun
  unbegun := by
    cases htransition with
    | crash => exact fun _ => hphased.unbegun rfl
    | _ => nofun

theorem begun_eq_false (hphased : Phased chunk state) (hchunk : Bytes.roomBound ≤ chunk) :
    state.fill.begun = false :=
  Bool.eq_false_iff.mpr fun hbegun => Nat.not_lt_of_le hchunk (hphased.begun hbegun)

/-- Without room for a chunk there is one move at most: the fill loop crashes before it reads. -/
theorem crashes (hphased : Phased chunk state) (hchunk : Bytes.roomBound ≤ chunk)
    (htransition : Transition chunk cancelled state move next) :
    next = { state with fill := .crashed } := by
  have hbegun := hphased.begun_eq_false hchunk
  cases htransition with
  | crash => rfl
  | begin hroom => omega
  | _ => cases hbegun

theorem ended_or_crashed (hphased : Phased chunk state) (hstopped : state.fill.stopped = true) :
    state.fill = .ended ∨ (state.fill = .crashed ∧ Bytes.roomBound ≤ chunk) := by
  cases hfill : state.fill with
  | ended => exact .inl rfl
  | crashed => exact .inr ⟨rfl, hphased.crashed hfill⟩
  | _ => simp [hfill, Fill.stopped] at hstopped

theorem drains (hphased : Phased chunk state) {pipe : Pipe} (hdrains : state.pipe.Drains pipe) :
    Phased chunk { state with pipe } where
  ended := fun hended => hdrains.completed.trans (hphased.ended hended)
  stopped := fun hcompleted => hphased.stopped (hdrains.completed ▸ hcompleted)
  begun := hphased.begun
  crashed := hphased.crashed
  unbegun := fun hbegun =>
    List.suffix_nil.mp (hphased.unbegun hbegun ▸ hdrains.buffer)

theorem complete (hphased : Phased chunk state) (hstopped : state.fill.stopped = true) :
    Phased chunk { state with pipe := state.pipe.complete } where
  ended := fun _ => rfl
  stopped := fun _ => hstopped
  begun := hphased.begun
  crashed := hphased.crashed
  unbegun := hphased.unbegun

end Phased

/-- What is true of the fill loop and its pipe at any time. -/
structure Sound (chunk : Nat) (state : State) : Prop where
  capacity_pos : 0 < state.pipe.capacity
  fits : state.pipe.buffer.length + state.fill.claimed ≤ state.pipe.capacity
  reading : ∀ want, state.fill = .reading want → 0 < want ∧ want ≤ chunk
  holding : ∀ data, state.fill = .holding data → data ≠ []
  waiting : state.fill = .waiting → state.pipe.writable = false → state.pipe.space = 0
  phased : Phased chunk state

namespace Sound

variable {chunk : Nat} {state next : State}

theorem start {capacity : Nat} (hcapacity : 0 < capacity) (stream : Bytes) :
    Sound chunk ⟨.starting, .empty capacity, stream⟩ where
  capacity_pos := hcapacity
  fits := Nat.zero_le _
  reading := by simp
  holding := by simp
  waiting := by simp
  phased := .start chunk capacity stream

theorem transition {cancelled : Bool} {move : FillMove} (hsound : Sound chunk state)
    (hchunk : 0 < chunk) (htransition : Transition chunk cancelled state move next) :
    Sound chunk next := by
  have hphased := hsound.phased.transition htransition
  obtain ⟨hcapacity, hfits, hreading, hholding, hwaiting, -⟩ := hsound
  cases htransition with
  | begin | crash | wake | stopWaiting | complete =>
    exact ⟨hcapacity, hfits, by simp, by simp, by simp, hphased⟩
  | findSpace hspace =>
    refine ⟨hcapacity, ?_, ?_, by simp, by simp, hphased⟩
    · simp only [claimed, Pipe.space] at hfits ⊢
      omega
    · rintro want ⟨rfl⟩
      omega
  | findFull hspace =>
    exact ⟨hcapacity, hfits, by simp, by simp, fun _ _ => hspace, hphased⟩
  | commit =>
    refine ⟨hcapacity, ?_, by simp, by simp, by simp, hphased⟩
    simpa [claimed, Pipe.commit] using hfits
  | deliver hn hwant hunread =>
    refine ⟨hcapacity, ?_, by simp, ?_, by simp, hphased⟩
    · simp only [claimed, List.length_take] at hfits ⊢
      omega
    · rintro data ⟨rfl⟩ hempty
      have hlength := congrArg List.length hempty
      simp only [List.length_take, List.length_nil] at hlength
      omega
  | streamEnd | readError | stopReading =>
    simp only [claimed] at hfits
    refine ⟨hcapacity, ?_, by simp, by simp, by simp, hphased⟩
    simp only [claimed]
    omega

/-- The consumer's doings keep the fill loop sound: a removal gives the producer a permit. -/
theorem drains (hsound : Sound chunk state) {pipe : Pipe} (hdrains : state.pipe.Drains pipe) :
    Sound chunk { state with pipe } where
  capacity_pos := by simpa [hdrains.capacity] using hsound.capacity_pos
  fits := by
    have hlength := hdrains.buffer.length_le
    have hfits := hsound.fits
    simp only [hdrains.capacity]
    omega
  reading := hsound.reading
  holding := hsound.holding
  waiting := by
    intro hfill hpermit
    rcases hdrains.permit with hgiven | ⟨hbuffer, hwritable⟩
    · simp [hgiven] at hpermit
    · have hspace := hsound.waiting hfill (by rwa [hwritable] at hpermit)
      simpa [Pipe.space, hbuffer, hdrains.capacity] using hspace
  phased := hsound.phased.drains hdrains

/-- Completing the pipe of a fill loop that has stopped changes nothing that it relies on. -/
theorem complete (hsound : Sound chunk state) (hstopped : state.fill.stopped = true) :
    Sound chunk { state with pipe := state.pipe.complete } where
  capacity_pos := hsound.capacity_pos
  fits := hsound.fits
  reading := hsound.reading
  holding := hsound.holding
  waiting := hsound.waiting
  phased := hsound.phased.complete hstopped

theorem buffer_length_le (hsound : Sound chunk state) :
    state.pipe.buffer.length ≤ state.pipe.capacity :=
  Nat.le_trans (Nat.le_add_right _ _) hsound.fits

end Sound

end Fill

end CheckHarness
