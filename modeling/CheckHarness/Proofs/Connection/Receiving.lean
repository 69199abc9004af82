import CheckHarness.Connection
import CheckHarness.Proofs.Connection.Pipe
import CheckHarness.Proofs.Connection.Search

namespace CheckHarness

namespace Receiving

/-- The steps of a receive, case by case. -/
inductive Transition (pipe : Pipe) : Receiving → Progress → Prop where
  | exactDone {n taken} (henough : n ≤ taken.length) :
    Transition pipe (.exact n taken .looking) (.done taken pipe)
  | exactFind {n taken} (hshort : taken.length < n) (hbuffer : pipe.buffer ≠ []) :
    Transition pipe (.exact n taken .looking)
      (.continues (.exact n taken (.taking (n - taken.length))) pipe)
  | exactEnd {n taken} (hshort : taken.length < n) (hbuffer : pipe.buffer = [])
    (hcompleted : pipe.completed = true) (cause : String) :
    Transition pipe (.exact n taken .looking) (.broken cause)
  | exactPark {n taken} (hshort : taken.length < n) (hbuffer : pipe.buffer = [])
    (hopen : pipe.completed = false) :
    Transition pipe (.exact n taken .looking) (.continues (.exact n taken .parking) pipe)
  | exactTake {n taken count} :
    Transition pipe (.exact n taken (.taking count))
      (.continues (.exact n (taken ++ (pipe.take count).1) .looking) (pipe.take count).2)
  | untilFind {scanner next index} (hscan : scanner.scan pipe.buffer = (some index, next)) :
    Transition pipe (.until scanner .looking) (.continues (.until next (.taking index)) pipe)
  | untilEnd {scanner next} (hscan : scanner.scan pipe.buffer = (none, next))
    (hcompleted : pipe.completed = true) (cause : String) :
    Transition pipe (.until scanner .looking) (.broken cause)
  | untilFull {scanner next} (hscan : scanner.scan pipe.buffer = (none, next))
    (hfull : pipe.capacity ≤ pipe.buffer.length) (cause : String) :
    Transition pipe (.until scanner .looking) (.broken cause)
  | untilPark {scanner next} (hscan : scanner.scan pipe.buffer = (none, next))
    (hopen : pipe.completed = false) (hroom : pipe.buffer.length < pipe.capacity) :
    Transition pipe (.until scanner .looking) (.continues (.until next .parking) pipe)
  | untilTake {scanner index} :
    Transition pipe (.until scanner (.taking index))
      (.done (pipe.take index).1 (pipe.take index).2)
  | park {receiving} (hstage : receiving.stage = .parking) (hpermit : pipe.readable = false) :
    Transition pipe receiving (.continues (receiving.withStage .parked) pipe)
  | wake {receiving} (hstage : receiving.stage = .parking ∨ receiving.stage = .parked)
    (hpermit : pipe.readable = true) :
    Transition pipe receiving (.continues (receiving.withStage .looking) pipe.pollReadable.2)

theorem transition_of_look_exact {pipe : Pipe} {n : Nat} {taken : Bytes} :
    Transition pipe (.exact n taken .looking) (look pipe (.exact n taken .looking)) := by
  rw [look]
  split
  · rename_i henough
    exact .exactDone henough
  · rename_i hshort
    split
    · rename_i hbuffer
      exact .exactFind (by omega) (by simpa using hbuffer)
    · rename_i hbuffer
      split
      · rename_i hcompleted
        exact .exactEnd (by omega) (by simpa using hbuffer) hcompleted _
      · rename_i hopen
        exact .exactPark (by omega) (by simpa using hbuffer) (by simpa using hopen)

theorem transition_of_look_until {pipe : Pipe} {scanner : Scanner} :
    Transition pipe (.until scanner .looking) (look pipe (.until scanner .looking)) := by
  rw [look]
  split
  · rename_i hscan
    exact .untilFind hscan
  · rename_i hscan
    split
    · rename_i hcompleted
      exact .untilEnd hscan hcompleted _
    · rename_i hopen
      split
      · rename_i hfull
        exact .untilFull hscan hfull _
      · rename_i hroom
        exact .untilPark hscan (by simpa using hopen) (by omega)

theorem transition_of_step {pipe : Pipe} {receiving : Receiving} {progress : Progress}
    (hstep : receiving.step pipe = some progress) : Transition pipe receiving progress := by
  unfold step at hstep
  split at hstep
  · rename_i hstage
    cases hstep
    cases receiving with
    | exact n taken stage =>
      obtain rfl : stage = .looking := hstage
      exact transition_of_look_exact
    | «until» scanner stage =>
      obtain rfl : stage = .looking := hstage
      exact transition_of_look_until
  · rename_i count hstage
    cases hstep
    cases receiving with
    | exact n taken stage =>
      obtain rfl : stage = .taking count := hstage
      exact .exactTake
    | «until» scanner stage =>
      obtain rfl : stage = .taking count := hstage
      exact .untilTake
  · rename_i hstage
    split at hstep
    · rename_i hpermit
      cases hstep
      exact .wake (.inl hstage) hpermit
    · rename_i hpermit
      cases hstep
      exact .park hstage (by simpa using hpermit)
  · rename_i hstage
    split at hstep
    · rename_i hpermit
      cases hstep
      exact .wake (.inr hstage) hpermit
    · cases hstep

/-- What a receive has taken out of the pipe already. -/
def taken : Receiving → Bytes
  | .exact _ taken _ => taken
  | .until _ _ => []

/-- What a receive has found out about the pipe. -/
def Consistent (pipe : Pipe) : Receiving → Prop
  | .exact n taken (.taking count) =>
    count = n - taken.length ∧ taken.length < n ∧ pipe.buffer ≠ []
  | .exact n taken _ => taken.length ≤ n
  | .until scanner (.taking index) =>
    scanner.Missed pipe.buffer ∧ endOfFirst? scanner.delimiter 0 pipe.buffer = some index
  | .until scanner _ => scanner.Missed pipe.buffer

/-- Nothing in the pipe is new to a receive, and nothing lets it go on. -/
def UpToDate (pipe : Pipe) : Receiving → Prop
  | .exact n taken _ => taken.length < n ∧ pipe.buffer = [] ∧ pipe.completed = false
  | .until scanner _ =>
    scanner.scanned = pipe.buffer.length ∧ endOfFirst? scanner.delimiter 0 pipe.buffer = none ∧
      pipe.buffer.length < pipe.capacity ∧ pipe.completed = false

/-- What is true of a receive at any time. -/
structure Sound (pipe : Pipe) (receiving : Receiving) : Prop where
  consistent : receiving.Consistent pipe
  upToDate : receiving.stage = .parking ∨ receiving.stage = .parked → pipe.readable = false →
    receiving.UpToDate pipe

/-- More bytes do not make what a receive knows wrong. -/
theorem Consistent.extends {pipe next : Pipe} {receiving : Receiving}
    (hconsistent : receiving.Consistent pipe) (hextends : pipe.Extends next) :
    receiving.Consistent next := by
  obtain ⟨more, hmore⟩ := hextends.buffer
  cases receiving with
  | exact n taken stage =>
    cases stage with
    | taking count =>
      obtain ⟨hcount, hshort, hbuffer⟩ := hconsistent
      refine ⟨hcount, hshort, ?_⟩
      rw [← hmore]
      exact List.append_ne_nil_of_left_ne_nil hbuffer more
    | _ => exact hconsistent
  | «until» scanner stage =>
    cases stage with
    | taking index =>
      obtain ⟨hmissed, hfound⟩ := hconsistent
      have hle := endOfFirst?_le_length scanner.delimiter_ne_nil hfound
      simp only [Consistent, ← hmore]
      exact ⟨hmissed.append more,
        (endOfFirst?_append_eq_some_iff scanner.delimiter_ne_nil hle).mpr hfound⟩
    | _ =>
      simp only [Consistent, ← hmore]
      exact Scanner.Missed.append hconsistent more

/-- The producer's doings keep a receive sound: every change comes with a permit. -/
theorem Sound.extends {pipe next : Pipe} {receiving : Receiving} (hsound : receiving.Sound pipe)
    (hextends : pipe.Extends next) : receiving.Sound next where
  consistent := hsound.consistent.extends hextends
  upToDate := by
    intro hstage hpermit
    rcases hextends.permit with hgiven | ⟨hbuffer, hcompleted, hreadable⟩
    · simp [hgiven] at hpermit
    · have hupToDate := hsound.upToDate hstage (by rwa [hreadable] at hpermit)
      cases receiving <;> simpa [UpToDate, hbuffer, hcompleted, hextends.capacity] using hupToDate

theorem withStage_stage (stage : ReceiveStage) (receiving : Receiving) :
    (receiving.withStage stage).stage = stage := by
  cases receiving <;> rfl

/-- A receive may go to wait when it has seen everything. -/
theorem Sound.park {pipe : Pipe} {receiving : Receiving} (hsound : receiving.Sound pipe)
    (hstage : receiving.stage = .parking) : (receiving.withStage .parked).Sound pipe where
  consistent := by
    have hconsistent := hsound.consistent
    cases receiving <;> obtain rfl := hstage <;> exact hconsistent
  upToDate := by
    intro _ hpermit
    have hupToDate := hsound.upToDate (.inl hstage) hpermit
    cases receiving <;> exact hupToDate

/-- A receive that is woken looks again. -/
theorem Sound.wake {pipe : Pipe} {receiving : Receiving} (hsound : receiving.Sound pipe)
    (hstage : receiving.stage = .parking ∨ receiving.stage = .parked) :
    (receiving.withStage .looking).Sound pipe.pollReadable.2 where
  consistent := by
    have hconsistent := hsound.consistent
    cases receiving <;> rcases hstage with rfl | rfl <;> exact hconsistent
  upToDate := by simp [withStage_stage]

namespace Transition

variable {pipe : Pipe} {receiving : Receiving} {progress : Progress}

/-- A step that goes on keeps the receive sound. -/
theorem sound {next : Receiving} {nextPipe : Pipe}
    (htransition : Transition pipe receiving (.continues next nextPipe))
    (hsound : receiving.Sound pipe) : next.Sound nextPipe := by
  have hconsistent := hsound.consistent
  cases htransition with
  | exactFind hshort hbuffer => exact ⟨⟨rfl, hshort, hbuffer⟩, by simp [stage]⟩
  | exactPark hshort hbuffer hopen => exact ⟨hconsistent, fun _ _ => ⟨hshort, hbuffer, hopen⟩⟩
  | exactTake =>
    obtain ⟨rfl, hshort, -⟩ := hconsistent
    refine ⟨?_, by simp [stage]⟩
    simp only [Consistent, Pipe.take, List.length_append, List.length_take]
    omega
  | untilFind hscan =>
    obtain ⟨hfound, rfl⟩ := Scanner.Missed.of_scan_some hconsistent hscan
    exact ⟨⟨hconsistent, hfound⟩, by simp [stage]⟩
  | untilPark hscan hopen hroom =>
    obtain ⟨hfound, hdelimiter, hscanned, hmissed⟩ := Scanner.Missed.of_scan_none hconsistent hscan
    exact ⟨hmissed, fun _ _ => ⟨hscanned, by rwa [hdelimiter], hroom, hopen⟩⟩
  | park hstage _ => exact hsound.park hstage
  | wake hstage _ => exact hsound.wake hstage

/-- What a step that goes on takes out of the pipe, the receive keeps. -/
theorem taken_append_buffer {next : Receiving} {nextPipe : Pipe}
    (htransition : Transition pipe receiving (.continues next nextPipe)) :
    next.taken ++ nextPipe.buffer = receiving.taken ++ pipe.buffer := by
  cases htransition with
  | exactTake => simp [taken, Pipe.take]
  | park | wake => cases receiving <;> rfl
  | _ => rfl

/-- A receive returns exactly what was taken out of the pipe for it. -/
theorem data_append_buffer {data : Bytes} {nextPipe : Pipe}
    (htransition : Transition pipe receiving (.done data nextPipe)) :
    data ++ nextPipe.buffer = receiving.taken ++ pipe.buffer := by
  cases htransition with
  | exactDone => rfl
  | untilTake => exact pipe.take_fst_append_buffer _

/-- A receive only takes from the pipe. -/
theorem drains_of_continues {next : Receiving} {nextPipe : Pipe}
    (htransition : Transition pipe receiving (.continues next nextPipe)) :
    pipe.Drains nextPipe := by
  cases htransition with
  | exactTake => exact .take _ _
  | wake => exact .pollReadable _
  | _ => exact .refl _

theorem drains_of_done {data : Bytes} {nextPipe : Pipe}
    (htransition : Transition pipe receiving (.done data nextPipe)) :
    pipe.Drains nextPipe := by
  cases htransition with
  | exactDone => exact .refl _
  | untilTake => exact .take _ _

end Transition

end Receiving

end CheckHarness
