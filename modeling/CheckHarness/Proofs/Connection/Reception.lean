import CheckHarness.Proofs.Connection.Conservation
import CheckHarness.Proofs.Connection.Progress
import CheckHarness.Proofs.Connection.Stream

namespace CheckHarness

/-- The result of a receive that comes to this. -/
def Receive.Answer.result : Receive.Answer → Except (Failure Fault) Bytes
  | .received data => .ok data
  | .failed => .error (.fault (.offline Connection.standardMessage))
  | .crashed => .error .crash

/-- What a pending call was asked for. -/
def Call.asked : Call → List Receive
  | .receiving pending => [pending.request]
  | _ => []

/-- A receive that has begun is the one that was asked for. -/
theorem Command.asked_of_call? {receive : Receive} {call : Call}
    (hcall : (Command.receive receive).call? = some call) :
    call.asked = [receive] ∧ ∃ receiving, call = .receiving receiving := by
  cases receive with
  | exact n =>
    cases hcall
    exact ⟨rfl, _, rfl⟩
  | «until» delimiter =>
    obtain ⟨scanner, hscanner, rfl⟩ := Option.map_eq_some_iff.mp hcall
    unfold Scanner.ofDelimiter? at hscanner
    split at hscanner
    · cases hscanner
    · cases hscanner
      exact ⟨rfl, _, rfl⟩

theorem Command.room_of_call? {receive : Receive} {call : Call}
    (hcall : (Command.receive receive).call? = some call) : call.room = receive.room := by
  cases receive with
  | exact n =>
    cases hcall
    rfl
  | «until» delimiter =>
    obtain ⟨scanner, -, rfl⟩ := Option.map_eq_some_iff.mp hcall
    rfl

/-- What the receive that is pending on a connection was asked for. -/
def Connection.asked (connection : Connection) : List Receive :=
  connection.call.elim [] Call.asked

/-- What there is to receive from now on, unless the connection has failed. -/
def Connection.rest (connection : Connection) : Option Bytes :=
  if connection.failed then none else some (connection.taken ++ connection.source.ahead)

theorem Connection.asked_of_call {connection : Connection} {receiving : Receiving}
    (hcall : connection.call = some (.receiving receiving)) :
    connection.asked = [receiving.request] := by
  simp only [asked, hcall, Option.elim_some, Call.asked]

/-- What is still to be received begins with what the pending receive has taken. -/
theorem Connection.rest_of_call {connection : Connection} {receiving : Receiving}
    (husable : connection.failed = false) (hcall : connection.call = some (.receiving receiving)) :
    connection.rest = some (receiving.taken ++ connection.source.pipe.buffer ++
      (connection.source.fill.held ++ connection.source.unread)) := by
  simp [rest, husable, taken, hcall, Call.taken, Fill.State.ahead]

/-- A connection with what the checker will still ask for and the results so far. -/
structure Reception where
  connection : Connection
  pending : List Receive
  results : List (Except (Failure Fault) Bytes)

namespace Reception

/-- A connection on which a script of receives is to be performed. -/
def start (connection : Connection) (script : List Receive) : Reception :=
  ⟨connection, script, []⟩

/-- The reception after a move of its connection. -/
def moved (reception : Reception) (next : Connection) (effect : Connection.Effect) : Reception :=
  { reception with connection := next, results := reception.results ++ effect.result.toList }

/-- A step of the fill loop, the next receive of the script, or a step of the pending receive. The
stream may end with an error, which comes after all of its bytes. -/
inductive Step : Reception → Reception → Prop where
  | fill {reception next move effect}
    (hstep : reception.connection.step (.fill move) = some (next, effect))
    (hend : move = .readError → reception.connection.source.unread = []) :
    Step reception (reception.moved next effect)
  | ask {reception receive pending next effect} (hpending : reception.pending = receive :: pending)
    (hstep : reception.connection.step (.start (.receive receive)) = some (next, effect)) :
    Step reception { reception.moved next effect with pending }
  | advance {reception next effect}
    (hstep : reception.connection.step .advance = some (next, effect)) :
    Step reception (reception.moved next effect)

/-- So many steps, one after the other. -/
inductive Steps (first : Reception) : Nat → Reception → Prop where
  | refl : Steps first 0 first
  | tail {n reception next} (hsteps : Steps first n reception) (hstep : Step reception next) :
    Steps first (n + 1) next

/-- What is true of a reception at any time: the results so far and those that the whole rest of the
stream yields are the expected ones. -/
structure Faithful (options : ConnectOptions) (expected : List (Except (Failure Fault) Bytes))
    (reception : Reception) : Prop where
  sound : reception.connection.Sound options
  message : reception.connection.offlineMessage = Connection.standardMessage
  receives : ∀ call, reception.connection.call = some call → ∃ receiving, call = .receiving receiving
  isOpen : reception.connection.closed = false
  steady : reception.connection.failed = false → reception.connection.cancelled = false
  drained : reception.connection.failed = false →
    reception.connection.source.fill = .finishing ∨ reception.connection.source.fill = .ended →
      reception.connection.source.unread = []
  delimiters : ∀ delimiter, .until delimiter ∈ reception.pending → delimiter ≠ []
  room : ∀ receive ∈ reception.connection.asked, receive.room < Bytes.roomBound
  whole : reception.results ++ (Receive.allFromStream options.capacity reception.connection.rest
    (reception.connection.asked ++ reception.pending)).map Receive.Answer.result = expected

namespace Faithful

variable {options : ConnectOptions} {expected : List (Except (Failure Fault) Bytes)}
  {reception next : Reception}

/-- At the start everything is still expected. -/
theorem start {stream : Bytes} {script : List Receive} {connection : Connection}
    (hconnect : Connection.connect options (.accepted stream) = .ok connection)
    (hdelimiters : ∀ delimiter, .until delimiter ∈ script → delimiter ≠ []) :
    Faithful options
      ((Receive.allFromStream options.capacity (some stream) script).map Receive.Answer.result)
      (.start connection script) := by
  have hsound := Connection.Sound.of_connect hconnect
  obtain ⟨-, rfl⟩ := Connection.connect_accepted_eq_ok_iff.mp hconnect
  exact {
    sound := hsound
    message := rfl
    receives := nofun
    isOpen := rfl
    steady := fun _ => rfl
    drained := by simp [Reception.start, Connection.fresh]
    delimiters := hdelimiters
    room := nofun
    whole := rfl }

theorem room_of_call (hfaithful : Faithful options expected reception) {receiving : Receiving}
    (hcall : reception.connection.call = some (.receiving receiving)) :
    receiving.request.room < Bytes.roomBound :=
  hfaithful.room _ (by simp [Connection.asked_of_call hcall])

/-- Nothing of the stream is outside a completed pipe. -/
theorem nothing_outside (hfaithful : Faithful options expected reception)
    (husable : reception.connection.failed = false)
    (hcompleted : reception.connection.source.pipe.completed = true) :
    reception.connection.source.fill.held ++ reception.connection.source.unread = [] := by
  have hended := (hfaithful.sound.stops.completed hcompleted).resolve_right
    (by simp [hfaithful.steady husable])
  rw [hended, hfaithful.drained husable (.inr hended)]
  rfl

/-- A reception that goes on with the same results expected. -/
theorem of_moved {connection : Connection} {effect : Connection.Effect} {pending : List Receive}
    (hfaithful : Faithful options expected reception) (hsound : connection.Sound options)
    (hmessage : connection.offlineMessage = reception.connection.offlineMessage)
    (hclosed : connection.closed = reception.connection.closed)
    (hreceives : ∀ call, connection.call = some call → ∃ receiving, call = .receiving receiving)
    (hsteady : connection.failed = false → connection.cancelled = false)
    (hdrained : connection.failed = false →
      connection.source.fill = .finishing ∨ connection.source.fill = .ended →
        connection.source.unread = [])
    (hpending : pending <:+ reception.pending)
    (hroom : ∀ receive ∈ connection.asked, receive.room < Bytes.roomBound)
    (hwhole : effect.result.toList ++ (Receive.allFromStream options.capacity connection.rest
        (connection.asked ++ pending)).map Receive.Answer.result =
      (Receive.allFromStream options.capacity reception.connection.rest
        (reception.connection.asked ++ reception.pending)).map Receive.Answer.result) :
    Faithful options expected { reception.moved connection effect with pending } where
  sound := hsound
  message := hmessage.trans hfaithful.message
  receives := hreceives
  isOpen := hclosed.trans hfaithful.isOpen
  steady := hsteady
  drained := hdrained
  delimiters := fun delimiter hmem => hfaithful.delimiters delimiter (hpending.subset hmem)
  room := hroom
  whole := by
    rw [← hfaithful.whole, ← hwhole, ← List.append_assoc]
    rfl

/-- The fill loop changes nothing that is expected. -/
theorem fill {move : FillMove} {connection : Connection} {effect : Connection.Effect}
    (hfaithful : Faithful options expected reception)
    (hstep : reception.connection.step (.fill move) = some (connection, effect))
    (hend : move = .readError → reception.connection.source.unread = []) :
    Faithful options expected (reception.moved connection effect) := by
  have hsound := hfaithful.sound.step hstep
  obtain ⟨source, htransition, rfl, rfl⟩ := Connection.fill_of_step hstep
  refine hfaithful.of_moved hsound rfl rfl hfaithful.receives hfaithful.steady ?_
    (List.suffix_refl _) hfaithful.room ?_
  · intro husable
    rw [hfaithful.steady husable] at htransition
    exact htransition.drained hend (hfaithful.drained husable)
  · simp only [Connection.rest, htransition.ahead_eq]
    rfl

theorem ask {receive : Receive} {pending : List Receive} {connection : Connection}
    {effect : Connection.Effect} (hfaithful : Faithful options expected reception)
    (hpending : reception.pending = receive :: pending)
    (hstep : reception.connection.step (.start (.receive receive)) = some (connection, effect)) :
    Faithful options expected { reception.moved connection effect with pending } := by
  have hsound := hfaithful.sound.step hstep
  have hsuffix : pending <:+ reception.pending := ⟨[receive], hpending.symm⟩
  cases Connection.transition_of_step hstep with
  | refuse hidle _ husable =>
    have hfailed : reception.connection.failed = true := by
      simpa [Connection.usable, hfaithful.isOpen] using husable
    refine hfaithful.of_moved hsound rfl rfl hfaithful.receives hfaithful.steady hfaithful.drained
      hsuffix hfaithful.room ?_
    simp [Connection.rest, hfailed, Connection.asked, hidle, hpending, Receive.allFromStream,
      Receive.Answer.result, Connection.returns, Connection.offline, hfaithful.message]
  | crash hidle hcall husable _ hroom =>
    have hunfailed := (Connection.usable_iff.mp husable).2
    rw [Command.room_of_call? hcall] at hroom
    refine hfaithful.of_moved hsound rfl rfl hfaithful.receives hfaithful.steady hfaithful.drained
      hsuffix hfaithful.room ?_
    simp [Connection.rest, hunfailed, Connection.asked, hidle, hpending, Receive.allFromStream,
      hroom, Receive.Answer.result, Connection.returns]
  | startCancelled _ _ husable hcancelled =>
    simp [hfaithful.steady (Connection.usable_iff.mp husable).2] at hcancelled
  | start hidle hcall _ hcancelled hroom =>
    rw [Command.room_of_call? hcall] at hroom
    obtain ⟨hasked, receiving, rfl⟩ := Command.asked_of_call? hcall
    have htaken := Command.taken_of_call? hcall
    refine hfaithful.of_moved hsound rfl rfl (by simp) hfaithful.steady hfaithful.drained hsuffix
      (by simpa [Connection.asked, hasked] using hroom) ?_
    simp [Connection.rest, Connection.asked, Connection.taken, hidle, hasked, htaken, hpending,
      Connection.silent]
  | noDelimiter _ => exact absurd rfl (hfaithful.delimiters [] (by simp [hpending]))
  | fails _ _ hmove => simp at hmove

theorem receiving_of_advance {connection : Connection} {effect : Connection.Effect}
    (hfaithful : Faithful options expected reception)
    (hstep : reception.connection.step .advance = some (connection, effect)) :
    ∃ receiving, reception.connection.call = some (.receiving receiving) := by
  obtain ⟨call, hcall⟩ := Connection.exists_call_of_advance hstep
  obtain ⟨receiving, rfl⟩ := hfaithful.receives call hcall
  exact ⟨receiving, hcall⟩

/-- A receive that ends gives what was expected next. -/
theorem advance {connection : Connection} {effect : Connection.Effect}
    (hfaithful : Faithful options expected reception)
    (hstep : reception.connection.step .advance = some (connection, effect)) :
    Faithful options expected (reception.moved connection effect) := by
  have hsound := hfaithful.sound.step hstep
  have hcapacity := hfaithful.sound.capacity
  obtain ⟨receiving, hcall⟩ := hfaithful.receiving_of_advance hstep
  have hreceiving := hfaithful.sound.receiving receiving hcall
  have husable := hfaithful.sound.not_failed_of_call hcall
  cases Connection.receives_of_step hcall hstep with
  | receive htransition =>
    have htaken := htransition.taken_append_buffer
    have hrequest := htransition.request_eq hreceiving
    have hroom := hfaithful.room
    rw [Connection.asked_of_call hcall] at hroom
    refine hfaithful.of_moved hsound rfl rfl (by simp) hfaithful.steady hfaithful.drained
      (List.suffix_refl _) ?_ ?_
    · rwa [Connection.asked_of_call rfl, hrequest]
    simp only [Connection.rest, Connection.asked, Connection.taken, hcall, Option.elim_some,
      Call.asked, Call.taken, Fill.State.ahead, ← List.append_assoc, htaken, hrequest,
      Connection.silent, Option.toList_none, List.nil_append]
  | received htransition =>
    have hyields := htransition.fromStream?_of_done hreceiving
      hfaithful.sound.source.buffer_length_le
      (reception.connection.source.fill.held ++ reception.connection.source.unread)
    rw [hcapacity] at hyields
    refine hfaithful.of_moved hsound rfl rfl (by simp) hfaithful.steady hfaithful.drained
      (List.suffix_refl _) (by simp [Connection.asked]) ?_
    rw [Connection.rest_of_call husable hcall, Connection.asked_of_call hcall, List.singleton_append,
      Receive.allFromStream_of_some (hfaithful.room_of_call hcall) hyields]
    simp [Connection.rest, husable, Connection.asked, Connection.taken, Fill.State.ahead,
      Receive.Answer.result, Connection.returns]
  | broken htransition =>
    -- Either the buffer is full, or the pipe is completed and has had the whole stream in it.
    have hnothing := htransition.fromStream?_of_broken hreceiving (hfaithful.nothing_outside husable)
    rw [hcapacity] at hnothing
    refine hfaithful.of_moved hsound rfl rfl (by simp) (by simp) (by simp) (List.suffix_refl _)
      (by simp [Connection.asked]) ?_
    rw [Connection.rest_of_call husable hcall, Connection.asked_of_call hcall, List.singleton_append,
      Receive.allFromStream_of_none (hfaithful.room_of_call hcall) hnothing]
    simp [Connection.rest, Connection.fail, Connection.asked, Receive.Answer.result,
      Connection.offline, hfaithful.message]

theorem step (hfaithful : Faithful options expected reception) (hstep : Step reception next) :
    Faithful options expected next := by
  cases hstep with
  | fill hstep hend => exact hfaithful.fill hstep hend
  | ask hpending hstep => exact hfaithful.ask hpending hstep
  | advance hstep => exact hfaithful.advance hstep

theorem steps {n : Nat} (hfaithful : Faithful options expected reception)
    (hsteps : Steps reception n next) : Faithful options expected next := by
  induction hsteps with
  | refl => exact hfaithful
  | tail _ hstep ih => exact ih.step hstep

/-- As long as something is pending, a step is possible. -/
theorem exists_step (hfaithful : Faithful options expected reception)
    (hroom : options.chunk < Bytes.roomBound) (hpending : reception.pending ≠ [] ∨ reception.connection.call ≠ none) :
    ∃ next, Step reception next := by
  cases hcall : reception.connection.call with
  | none =>
    obtain ⟨receive, pending, hscript⟩ :=
      List.exists_cons_of_ne_nil (hpending.resolve_right (by simp [hcall]))
    have hstep : reception.connection.step (.start (.receive receive)) =
        some (reception.connection.start (.receive receive)) := by
      simp [Connection.step, hcall]
    exact ⟨_, .ask hscript hstep⟩
  | some call =>
    obtain ⟨receiving, rfl⟩ := hfaithful.receives call hcall
    have hcancelled := hfaithful.steady (hfaithful.sound.not_failed_of_call hcall)
    rcases Connection.advances_or_waits hcall hcancelled with ⟨result, hstep⟩ | hwaits
    · exact ⟨_, .advance hstep⟩
    · obtain ⟨move, result, hstep, hmove⟩ := hfaithful.sound.exists_fill_step hroom hwaits
      exact ⟨_, .fill hstep (fun hend => absurd hend hmove)⟩

end Faithful

/-- Nothing has come from the peer: the receives so far were of no bytes, or crashed. -/
structure Starved (reception : Reception) : Prop where
  unfailed : reception.connection.failed = false
  taken : reception.connection.taken = []
  results : ∀ result ∈ reception.results, result = .ok [] ∨ result = .error .crash

namespace Starved

variable {options : ConnectOptions} {expected : List (Except (Failure Fault) Bytes)}
  {reception next : Reception}

/-- A reception has received nothing at the start. -/
theorem start {stream : Bytes} {connection : Connection}
    (hconnect : Connection.connect options (.accepted stream) = .ok connection)
    (script : List Receive) : Starved (.start connection script) := by
  obtain ⟨-, rfl⟩ := Connection.connect_accepted_eq_ok_iff.mp hconnect
  exact ⟨rfl, rfl, nofun⟩

theorem moved {connection : Connection} {effect : Connection.Effect} {pending : List Receive}
    (hstarved : Starved reception) (hunfailed : connection.failed = false)
    (htaken : connection.taken = [])
    (hresult : ∀ result ∈ effect.result, result = .ok [] ∨ result = .error .crash) :
    Starved { reception.moved connection effect with pending } where
  unfailed := hunfailed
  taken := htaken
  results := by
    intro result hmem
    rcases List.mem_append.mp hmem with hbefore | hnew
    · exact hstarved.results result hbefore
    · exact hresult result (Option.mem_toList.mp hnew)

theorem fill {move : FillMove} {connection : Connection} {effect : Connection.Effect}
    (hstarved : Starved reception)
    (hstep : reception.connection.step (.fill move) = some (connection, effect)) :
    Starved (reception.moved connection effect) := by
  obtain ⟨source, -, rfl, rfl⟩ := Connection.fill_of_step hstep
  exact hstarved.moved hstarved.unfailed hstarved.taken (by simp)

theorem ask {receive : Receive} {pending : List Receive} {connection : Connection}
    {effect : Connection.Effect} (hstarved : Starved reception)
    (hfaithful : Faithful options expected reception)
    (hpending : reception.pending = receive :: pending)
    (hstep : reception.connection.step (.start (.receive receive)) = some (connection, effect)) :
    Starved { reception.moved connection effect with pending } := by
  have husable : reception.connection.usable = true :=
    Connection.usable_iff.mpr ⟨hfaithful.isOpen, hstarved.unfailed⟩
  cases Connection.transition_of_step hstep with
  | refuse _ _ hunusable => simp [husable] at hunusable
  | startCancelled _ _ _ hcancelled =>
    simp [hfaithful.steady hstarved.unfailed] at hcancelled
  | crash =>
    exact hstarved.moved hstarved.unfailed hstarved.taken (by simp [Connection.returns])
  | start _ hcall _ _ _ =>
    refine hstarved.moved hstarved.unfailed ?_ (by simp [Connection.silent])
    simp [Connection.taken, Command.taken_of_call? hcall]
  | noDelimiter _ => exact absurd rfl (hfaithful.delimiters [] (by simp [hpending]))
  | fails _ _ hmove => simp at hmove

/-- Neither bytes nor the end of the stream come to the pipe, so a receive ends only if it asks for
nothing. -/
theorem advance {connection : Connection} {effect : Connection.Effect}
    (hstarved : Starved reception) (hfaithful : Faithful options expected reception)
    (hroom : Bytes.roomBound ≤ options.chunk)
    (hstep : reception.connection.step .advance = some (connection, effect)) :
    Starved (reception.moved connection effect) := by
  -- What is taken comes from the buffer, which stays empty.
  obtain ⟨hbuffer, -⟩ := hfaithful.sound.starved hroom
  obtain ⟨receiving, hcall⟩ := hfaithful.receiving_of_advance hstep
  have hbefore := hstarved.taken
  simp only [Connection.taken, hcall, Option.elim_some, Call.taken] at hbefore
  cases Connection.receives_of_step hcall hstep with
  | receive htransition =>
    have htaken := htransition.taken_append_buffer
    rw [hbefore, hbuffer] at htaken
    exact hstarved.moved hstarved.unfailed (List.append_eq_nil_iff.mp htaken).1
      (by simp [Connection.silent])
  | received htransition =>
    have hdata := htransition.data_append_buffer
    rw [hbefore, hbuffer] at hdata
    obtain ⟨rfl, -⟩ := List.append_eq_nil_iff.mp hdata
    exact hstarved.moved hstarved.unfailed rfl (by simp [Connection.returns])
  | broken htransition =>
    have hcancelled := hfaithful.steady hstarved.unfailed
    exact absurd htransition (hfaithful.sound.not_broken_of_starved hroom hcancelled)

end Starved

/-- Where the fill loop cannot start, nothing is ever received. -/
theorem Faithful.starved {options : ConnectOptions}
    {expected : List (Except (Failure Fault) Bytes)} {first last : Reception} {n : Nat}
    (hfaithful : Faithful options expected first) (hroom : Bytes.roomBound ≤ options.chunk)
    (hstarved : Starved first) (hsteps : Steps first n last) : Starved last := by
  induction hsteps with
  | refl => exact hstarved
  | tail hsteps hstep ih =>
    have hmiddle := hfaithful.steps hsteps
    cases hstep with
    | fill hstep _ => exact ih.fill hstep
    | ask hpending hstep => exact ih.ask hmiddle hpending hstep
    | advance hstep => exact ih.advance hmiddle hroom hstep

/-- What there is to do in a reception. -/
def weight (reception : Reception) : Nat :=
  reception.connection.weight + 4 * reception.pending.length

/-- Every step uses up something. -/
theorem Faithful.weight_lt {options : ConnectOptions}
    {expected : List (Except (Failure Fault) Bytes)}
    {reception next : Reception} (hfaithful : Faithful options expected reception)
    (hstep : Step reception next) : next.weight < reception.weight := by
  cases hstep with
  | fill hstep _ =>
    have hweight := Connection.weight_fill_lt hfaithful.sound hstep
    simp only [weight, moved]
    omega
  | ask hpending hstep =>
    have hweight := Connection.weight_start_le hstep
    simp only [weight, moved, hpending, List.length_cons]
    omega
  | advance hstep =>
    cases hcall : reception.connection.call with
    | none => simp [Connection.step, hcall] at hstep
    | some call =>
      obtain ⟨receiving, rfl⟩ := hfaithful.receives call hcall
      have hweight := Connection.weight_advance_lt hfaithful.sound hcall hstep
      simp only [weight, moved]
      omega

/-- A course of steps is bounded by what there is to use up. -/
theorem Faithful.add_weight_le {options : ConnectOptions}
    {expected : List (Except (Failure Fault) Bytes)}
    {first last : Reception} {n : Nat} (hfaithful : Faithful options expected first)
    (hsteps : Steps first n last) : n + last.weight ≤ first.weight := by
  induction hsteps with
  | refl => omega
  | tail hsteps hstep ih =>
    have hweight := (hfaithful.steps hsteps).weight_lt hstep
    omega

/-- Every reception comes to the end of its script. -/
theorem Faithful.exists_complete {options : ConnectOptions}
    {expected : List (Except (Failure Fault) Bytes)} {first last : Reception} {n : Nat}
    (hfaithful : Faithful options expected first) (hroom : options.chunk < Bytes.roomBound)
    (hsteps : Steps first n last) :
    ∃ m complete, Steps first m complete ∧ complete.pending = [] ∧ complete.connection.call = none := by
  by_cases hpending : last.pending ≠ [] ∨ last.connection.call ≠ none
  · obtain ⟨next, hstep⟩ := (hfaithful.steps hsteps).exists_step hroom hpending
    have hweight := (hfaithful.steps hsteps).weight_lt hstep
    exact hfaithful.exists_complete hroom (.tail hsteps hstep)
  · simp only [ne_eq, not_or, Decidable.not_not] at hpending
    exact ⟨n, last, hsteps, hpending⟩
termination_by last.weight

/-- A script of receives has the results that it has on the whole stream, whichever reads the stream
comes in and whichever order the steps are taken in. What has been returned at any time is a prefix
of these results, and all of them have been returned when the script is through. Until then a step
is possible, if there is room for what is read at a time, and the number of steps is bounded by the
stream and the script. Without that room not a byte is received. -/
theorem results_eq_allFromStream {options : ConnectOptions} {stream : Bytes} {script : List Receive}
    {connection : Connection} {n : Nat} {reception : Reception}
    (hconnect : Connection.connect options (.accepted stream) = .ok connection)
    (hdelimiters : ∀ delimiter, .until delimiter ∈ script → delimiter ≠ [])
    (hsteps : Steps (start connection script) n reception) :
    reception.results <+:
      (Receive.allFromStream options.capacity (some stream) script).map Receive.Answer.result ∧
    (reception.pending = [] → reception.connection.call = none →
      reception.results =
        (Receive.allFromStream options.capacity (some stream) script).map Receive.Answer.result) ∧
    (options.chunk < Bytes.roomBound →
      reception.pending ≠ [] ∨ reception.connection.call ≠ none → ∃ next, Step reception next) ∧
    (Bytes.roomBound ≤ options.chunk →
      ∀ result ∈ reception.results, result = .ok [] ∨ result = .error .crash) ∧
    n ≤ 13 * stream.length + 4 * script.length + 7 := by
  have hstart := Faithful.start hconnect hdelimiters
  have hfaithful := hstart.steps hsteps
  refine ⟨⟨_, hfaithful.whole⟩, ?_, hfaithful.exists_step, ?_, ?_⟩
  · intro hpending hcall
    have hwhole := hfaithful.whole
    simpa only [hpending, Connection.asked, hcall, Option.elim_none, List.append_nil,
      Receive.allFromStream, List.map_nil] using hwhole
  · intro hroom
    exact (hstart.starved hroom (.start hconnect script) hsteps).results
  · have hweight := hstart.add_weight_le hsteps
    simp only [weight, start, Connection.weight_of_connect hconnect] at hweight
    omega

/-- A delimiter, more bytes than the buffer holds, a delimiter that does not come, and a receive
after that failure. -/
theorem results_eq_allFromStream_mixed :
    ∃ connection n reception,
      Connection.connect ⟨.zero, 4, 2, none, ""⟩ (.accepted [1, 2, 13, 10, 5, 6, 7, 8, 9, 11]) =
        .ok connection ∧
      Steps (start connection [.until [13, 10], .exact 5, .until [10], .exact 0]) n reception ∧
      reception.results =
        [.ok [1, 2, 13, 10], .ok [5, 6, 7, 8, 9], .error (.fault (.offline "Connection error")),
          .error (.fault (.offline "Connection error"))] := by
  have hdelimiters : ∀ delimiter, .until delimiter ∈
      [Receive.until [13, 10], .exact 5, .until [10], .exact 0] → delimiter ≠ [] := by simp
  have hconnect : Connection.connect ⟨.zero, 4, 2, none, ""⟩
    (.accepted [1, 2, 13, 10, 5, 6, 7, 8, 9, 11]) = .ok _ := rfl
  obtain ⟨n, reception, hsteps, hpending, hcall⟩ :=
    (Faithful.start hconnect hdelimiters).exists_complete (by decide) .refl
  exact ⟨_, n, reception, hconnect, hsteps,
    (results_eq_allFromStream hconnect hdelimiters hsteps).2.1 hpending hcall⟩

/-- On a stream that has ended, a receive of more bytes than there can be room for crashes, and the
connection takes the next receive as if there had been none. -/
theorem results_of_crash :
    ∃ connection n reception,
      Connection.connect ⟨.zero, 4, 2, none, ""⟩ (.accepted []) = .ok connection ∧
      Steps (start connection [.exact 9223372036854775808, .exact 0]) n reception ∧
      reception.pending = [] ∧ reception.connection.call = none ∧
      reception.connection.failed = false ∧ reception.results = [.error .crash, .ok []] := by
  let made : Connection := .fresh ⟨.zero, 4, 2, none, ""⟩ (.empty 4) []
  let asked : Connection := { made with call := some (.receiving (.exact 0 [] .looking)) }
  have hcrash : Step (start made [.exact 9223372036854775808, .exact 0])
      ⟨made, [.exact 0], [.error .crash]⟩ :=
    @Step.ask _ _ _ made (Connection.returns (.error .crash)) rfl rfl
  have hask : Step ⟨made, [.exact 0], [.error .crash]⟩ ⟨asked, [], [.error .crash]⟩ :=
    @Step.ask _ _ _ asked Connection.silent rfl rfl
  have hdone : Step ⟨asked, [], [.error .crash]⟩ ⟨made, [], [.error .crash, .ok []]⟩ :=
    @Step.advance _ made (Connection.returns (.ok [])) rfl
  exact ⟨made, 3, _, rfl, .tail (.tail (.tail .refl hcrash) hask) hdone, rfl, rfl, rfl, rfl⟩

end Reception

end CheckHarness
