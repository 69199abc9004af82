import CheckHarness.Proofs.Connection.Reception
import CheckHarness.Proofs.LineStore.Line

namespace CheckHarness.LineStore

/-- A connection with what the checker will still ask for and the results so far. -/
structure Conversation where
  connection : Connection
  script : List Command
  results : List (Except (Failure Fault) Bytes)

/-- What is received from a stream: its first line, if it fits into the buffer. -/
def heard (options : ConnectOptions) (stream : Bytes) : Except Fault Bytes :=
  match (Receive.until [0x0A]).fromStream? options.capacity stream with
  | some (line, _) => .ok line
  | none => .error (.offline Connection.standardMessage)

/-- A call begins only while none is pending. -/
theorem Connection.idle_of_start {connection : Connection} {command : Command}
    {result : Connection × Connection.Effect}
    (hstep : connection.step (.start command) = some result) : connection.call = none := by
  simp only [Connection.step, Option.ite_none_right_eq_some, Option.isNone_iff_eq_none] at hstep
  exact hstep.1

namespace Conversation

/-- A connection on which a line is to be sent and another one received. -/
def start (connection : Connection) (line : Bytes) : Conversation :=
  ⟨connection, [.send line, .receive (.until [0x0A]), .close], []⟩

def moved (conversation : Conversation) (next : Connection) (effect : Connection.Effect) :
    Conversation :=
  { conversation with
    connection := next, results := conversation.results ++ effect.result.toList }

/-- A step of the fill loop, the next call of the script, some bytes that the socket accepts, or a
step of the pending call. Only a peer that ends its stream lets the fill loop come to an end, be it
with an error, and then all bytes were delivered. -/
inductive Step (ends : Bool) : Conversation → Conversation → Prop where
  | fill {conversation next move effect}
    (hstep : conversation.connection.step (.fill move) = some (next, effect))
    (hend : move = .streamEnd ∨ move = .readError →
      ends = true ∧ conversation.connection.source.unread = []) :
    Step ends conversation (conversation.moved next effect)
  | ask {conversation command script next effect}
    (hscript : conversation.script = command :: script)
    (hstep : conversation.connection.step (.start command) = some (next, effect)) :
    Step ends conversation { conversation.moved next effect with script }
  | accept {conversation next effect n}
    (hstep : conversation.connection.step (.accept n) = some (next, effect)) :
    Step ends conversation (conversation.moved next effect)
  | advance {conversation next effect}
    (hstep : conversation.connection.step .advance = some (next, effect)) :
    Step ends conversation (conversation.moved next effect)

/-- So many steps, one after the other. -/
inductive Steps (ends : Bool) (first : Conversation) : Nat → Conversation → Prop where
  | refl : Steps ends first 0 first
  | tail {n conversation next} (hsteps : Steps ends first n conversation)
    (hstep : Step ends conversation next) : Steps ends first (n + 1) next

/-- The script is through. -/
structure Complete (conversation : Conversation) : Prop where
  script : conversation.script = []
  idle : conversation.connection.call = none

/-- Nothing has stopped the connection yet, except that the stream may have ended. -/
structure Live (connection : Connection) : Prop where
  isOpen : connection.closed = false
  unfailed : connection.failed = false
  uncancelled : connection.cancelled = false
  message : connection.offlineMessage = Connection.standardMessage
  drained : connection.source.fill = .finishing ∨ connection.source.fill = .ended →
    connection.source.unread = []

theorem Live.usable {connection : Connection} (hlive : Live connection) :
    connection.usable = true :=
  Connection.usable_iff.mpr ⟨hlive.isOpen, hlive.unfailed⟩

/-- What has stopped a connection does not show in its call or in its pipe. -/
theorem Live.change {connection : Connection} (hlive : Live connection) (call : Option Call)
    (pipe : Pipe) (written : Bytes) :
    Live { connection with source := { connection.source with pipe }, call, written } :=
  ⟨hlive.isOpen, hlive.unfailed, hlive.uncancelled, hlive.message, hlive.drained⟩

/-- A live connection stays live while the fill loop reads. -/
theorem Live.fill {connection : Connection} {move : FillMove} {source : Fill.State}
    (hlive : Live connection)
    (htransition : Fill.Transition connection.chunk connection.cancelled connection.source move
      source)
    (hend : move = .readError → connection.source.unread = []) :
    Live { connection with source } := by
  refine ⟨hlive.isOpen, hlive.unfailed, hlive.uncancelled, hlive.message, ?_⟩
  rw [hlive.uncancelled] at htransition
  exact htransition.drained hend hlive.drained

/-- How far a conversation has come, in which the given line is sent and the given answer heard. -/
inductive Stage (line : Bytes) (answer : Except Fault Bytes) : Conversation → Prop where
  | opened {connection} (hlive : Live connection) (hcall : connection.call = none)
    (hwritten : connection.written = []) :
    Stage line answer ⟨connection, [.send line, .receive (.until [0x0A]), .close], []⟩
  | sending {connection rest} (hlive : Live connection)
    (hcall : connection.call = some (.sending rest)) (hwritten : connection.written ++ rest = line) :
    Stage line answer ⟨connection, [.receive (.until [0x0A]), .close], []⟩
  | sent {connection} (hlive : Live connection) (hcall : connection.call = none)
    (hwritten : connection.written = line) :
    Stage line answer ⟨connection, [.receive (.until [0x0A]), .close], [.ok []]⟩
  | receiving {connection receiving} (hlive : Live connection)
    (hcall : connection.call = some (.receiving receiving))
    (hrequest : receiving.request = .until [0x0A]) (hwritten : connection.written = line) :
    Stage line answer ⟨connection, [.close], [.ok []]⟩
  | received {connection} (hopen : connection.closed = false) (hcall : connection.call = none)
    (hwritten : connection.written = line) :
    Stage line answer ⟨connection, [.close], [.ok [], answer.mapError .fault]⟩
  | closing {connection} (hcancelled : connection.cancelled = true)
    (hcall : connection.call = some .closing) (hwritten : connection.written = line) :
    Stage line answer ⟨connection, [], [.ok [], answer.mapError .fault]⟩
  | closed {connection} (hcall : connection.call = none) (hwritten : connection.written = line) :
    Stage line answer ⟨connection, [], [.ok [], answer.mapError .fault, .ok []]⟩

namespace Stage

variable {line : Bytes} {answer : Except Fault Bytes} {conversation : Conversation}
  {next : Connection} {effect : Connection.Effect}

theorem fill {move : FillMove} (hstage : Stage line answer conversation)
    (hstep : conversation.connection.step (.fill move) = some (next, effect))
    (hend : move = .readError → conversation.connection.source.unread = []) :
    Stage line answer (conversation.moved next effect) := by
  obtain ⟨source, htransition, rfl, rfl⟩ := Connection.fill_of_step hstep
  cases hstage with
  | opened hlive hcall hwritten => exact .opened (hlive.fill htransition hend) hcall hwritten
  | sending hlive hcall hwritten => exact .sending (hlive.fill htransition hend) hcall hwritten
  | sent hlive hcall hwritten => exact .sent (hlive.fill htransition hend) hcall hwritten
  | receiving hlive hcall hrequest hwritten =>
    exact .receiving (hlive.fill htransition hend) hcall hrequest hwritten
  | received hopen hcall hwritten => exact .received hopen hcall hwritten
  | closing hcancelled hcall hwritten => exact .closing hcancelled hcall hwritten
  | closed hcall hwritten => exact .closed hcall hwritten

/-- A call begins on a connection that lives. -/
theorem start_of_live {connection : Connection} {command : Command} {call : Call}
    (hlive : Live connection) (hcommand : command.call? = some call)
    (hroom : call.room < Bytes.roomBound)
    (hstep : connection.step (.start command) = some (next, effect)) :
    next = { connection with call := some call } ∧ effect = Connection.silent := by
  cases Connection.transition_of_step hstep with
  | start _ hcall =>
    cases hcommand.symm.trans hcall
    exact ⟨rfl, rfl⟩
  | crash _ hcall _ _ hnone =>
    cases hcommand.symm.trans hcall
    omega
  | refuse _ _ husable => simp [hlive.usable] at husable
  | startCancelled _ _ _ hcancelled => simp [hlive.uncancelled] at hcancelled
  | noDelimiter | setMessage | closeAgain | close => cases hcommand
  | fails _ _ hmove => simp at hmove

/-- A command that begins is the next one of the script. -/
theorem ask {command : Command} {script : List Command} (hstage : Stage line answer conversation)
    (hscript : conversation.script = command :: script)
    (hstep : conversation.connection.step (.start command) = some (next, effect)) :
    Stage line answer { conversation.moved next effect with script } := by
  have hidle := Connection.idle_of_start hstep
  cases hstage with
  | @opened connection hlive hcall hwritten =>
    cases hscript
    obtain ⟨rfl, rfl⟩ := start_of_live hlive rfl (by exact Bytes.roomBound_pos) hstep
    have hline : connection.written ++ line = line := by rw [hwritten, List.nil_append]
    exact .sending (hlive.change _ _ _) rfl hline
  | sending _ hcall _ => simp [hcall] at hidle
  | sent hlive hcall hwritten =>
    cases hscript
    obtain ⟨rfl, rfl⟩ := start_of_live hlive rfl (by exact Bytes.roomBound_pos) hstep
    exact .receiving (hlive.change _ _ _) rfl rfl hwritten
  | receiving _ hcall _ _ => simp [hcall] at hidle
  | received hopen hcall hwritten =>
    cases hscript
    cases Connection.transition_of_step hstep with
    | close _ _ => exact .closing rfl rfl hwritten
    | closeAgain _ hclosed => simp [hopen] at hclosed
    | refuse _ hcommand | startCancelled _ hcommand | start _ hcommand | crash _ hcommand =>
      cases hcommand
    | fails _ _ hmove => simp at hmove
  | closing | closed => cases hscript

/-- A part of the line that is accepted was still to be sent. -/
theorem accept {n : Nat} (hstage : Stage line answer conversation)
    (hstep : conversation.connection.step (.accept n) = some (next, effect)) :
    Stage line answer (conversation.moved next effect) := by
  cases Connection.transition_of_step hstep with
  | @accept n sending hsending _ _ =>
    cases hstage with
    | sending hlive hcall hwritten =>
      cases hcall.symm.trans hsending
      refine .sending (hlive.change _ _ _) rfl ?_
      rw [List.append_assoc, List.take_append_drop]
      exact hwritten
    | opened _ hcall | sent _ hcall | receiving _ hcall | received _ hcall | closing _ hcall
    | closed hcall => simp [hcall] at hsending
  | fails _ _ hmove => simp at hmove

/-- Everything that was not received yet is the stream as a whole. -/
theorem stream_eq {stream : Bytes} {connection : Connection} {receiving : Receiving}
    (hconserves : Connection.Conserves stream [] connection) (hlive : Live connection)
    (hcall : connection.call = some (.receiving receiving)) :
    receiving.taken ++ connection.source.pipe.buffer ++
      (connection.source.fill.held ++ connection.source.unread) = stream := by
  have hwhole := hconserves.whole hlive.unfailed
  simpa [Connection.taken, hcall, Call.taken, Fill.State.ahead] using hwhole

/-- When the pipe of a live connection is completed, the whole stream has been through it. -/
theorem nothing_outside {options : ConnectOptions} {connection : Connection}
    (hsound : connection.Sound options) (hlive : Live connection)
    (hcompleted : connection.source.pipe.completed = true) :
    connection.source.fill.held ++ connection.source.unread = [] := by
  have hended := (hsound.stops.completed hcompleted).resolve_right (by simp [hlive.uncancelled])
  rw [hended, hlive.drained (.inr hended)]
  rfl

variable {options : ConnectOptions} {stream : Bytes}

/-- A receive ends with the first line of the stream, or breaks where no line can be received. -/
theorem advance_receiving {connection : Connection} {receiving : Receiving}
    (hsound : connection.Sound options) (hconserves : Connection.Conserves stream [] connection)
    (hlive : Live connection) (hcall : connection.call = some (.receiving receiving))
    (hrequest : receiving.request = .until [0x0A]) (hwritten : connection.written = line)
    (hstep : connection.step .advance = some (next, effect)) :
    Stage line (heard options stream) ⟨next, [.close], .ok [] :: effect.result.toList⟩ := by
  have hwhole := stream_eq hconserves hlive hcall
  have hreceiving := hsound.receiving receiving hcall
  cases Connection.receives_of_step hcall hstep with
  | receive htransition =>
    exact .receiving (hlive.change _ _ _) rfl
      ((htransition.request_eq hreceiving).trans hrequest) hwritten
  | @received data pipe htransition =>
    have hyields := htransition.fromStream?_of_done hreceiving hsound.source.buffer_length_le
      (connection.source.fill.held ++ connection.source.unread)
    rw [hrequest, hsound.capacity, hwhole] at hyields
    have hheard : heard options stream = .ok data := by rw [heard, hyields]
    rw [hheard]
    exact .received hlive.isOpen rfl hwritten
  | broken htransition =>
    have hnothing := htransition.fromStream?_of_broken hreceiving (nothing_outside hsound hlive)
    rw [hrequest, hsound.capacity, hwhole] at hnothing
    have hheard : (heard options stream).mapError .fault = connection.offline := by
      rw [heard, hnothing, Connection.offline, hlive.message]
      rfl
    simp only [Connection.fail, Option.toList_some, ← hheard]
    exact .received hlive.isOpen rfl hwritten

end Stage

/-- The bytes that the calls have returned. -/
def returned (conversation : Conversation) : Bytes :=
  conversation.results.flatMap fun result => result.toOption.getD []

theorem returned_moved (conversation : Conversation) (next : Connection)
    (effect : Connection.Effect) :
    (conversation.moved next effect).returned = conversation.returned ++ effect.received := by
  have hresult : (effect.result.toList.flatMap fun result => result.toOption.getD []) =
      effect.received := by
    obtain ⟨result, events⟩ := effect
    cases result with
    | none => rfl
    | some result =>
      rw [Option.toList_some, List.flatMap_singleton]
      cases result <;> rfl
  rw [returned, moved, List.flatMap_append, hresult]
  rfl

/-- What is true of a conversation at any time. -/
structure Sound (options : ConnectOptions) (line stream : Bytes) (conversation : Conversation) :
    Prop where
  connection : conversation.connection.Sound options
  conserves : Connection.Conserves stream conversation.returned conversation.connection
  stage : Stage line (heard options stream) conversation

namespace Sound

variable {options : ConnectOptions} {line stream : Bytes} {ends : Bool}
  {conversation next : Conversation}

theorem start {connection : Connection}
    (hconnect : Connection.connect options (.accepted stream) = .ok connection) (line : Bytes) :
    Sound options line stream (.start connection line) where
  connection := .of_connect hconnect
  conserves := .of_connect hconnect
  stage := by
    obtain ⟨-, rfl⟩ := Connection.connect_accepted_eq_ok_iff.mp hconnect
    refine .opened ⟨rfl, rfl, rfl, rfl, ?_⟩ rfl rfl
    simp [Connection.fresh]

/-- A step of a call brings the conversation forward or leaves it where it is. -/
theorem advance {connection : Connection} {effect : Connection.Effect}
    (hsound : Sound options line stream conversation)
    (hstep : conversation.connection.step .advance = some (connection, effect)) :
    Stage line (heard options stream) (conversation.moved connection effect) := by
  obtain ⟨hconnection, hconserves, hstage⟩ := hsound
  cases hstage with
  | receiving hlive hcall hrequest hwritten =>
    exact Stage.advance_receiving hconnection hconserves hlive hcall hrequest hwritten hstep
  | sending hlive hcall hwritten =>
    obtain ⟨rfl, rfl, rfl⟩ := Connection.advance_of_sending hcall hstep
    rw [List.append_nil] at hwritten
    exact .sent (hlive.change _ _ _) rfl hwritten
  | closing _ hcall hwritten =>
    obtain ⟨-, rfl, rfl⟩ := Connection.advance_of_closing hcall hstep
    exact .closed rfl hwritten
  | opened _ hcall | sent _ hcall | received _ hcall | closed hcall =>
    simp [Connection.step, hcall] at hstep

theorem step (hsound : Sound options line stream conversation)
    (hstep : Step ends conversation next) : Sound options line stream next := by
  have hmoved : ∀ {move connection effect}, move ≠ .abandon →
      conversation.connection.step move = some (connection, effect) →
        connection.Sound options ∧ Connection.Conserves stream
          (conversation.moved connection effect).returned connection := by
    intro move connection effect hmove hstep
    refine ⟨hsound.connection.step hstep, ?_⟩
    rw [returned_moved]
    exact hsound.conserves.transition hsound.connection (Connection.transition_of_step hstep) hmove
  cases hstep with
  | fill hstep hend =>
    obtain ⟨hconnection, hconserves⟩ := hmoved (by simp) hstep
    exact ⟨hconnection, hconserves, hsound.stage.fill hstep fun herror => (hend (.inr herror)).2⟩
  | ask hscript hstep =>
    obtain ⟨hconnection, hconserves⟩ := hmoved (by simp) hstep
    exact ⟨hconnection, hconserves, hsound.stage.ask hscript hstep⟩
  | accept hstep =>
    obtain ⟨hconnection, hconserves⟩ := hmoved (by simp) hstep
    exact ⟨hconnection, hconserves, hsound.stage.accept hstep⟩
  | advance hstep =>
    obtain ⟨hconnection, hconserves⟩ := hmoved (by simp) hstep
    exact ⟨hconnection, hconserves, hsound.advance hstep⟩

theorem steps {n : Nat} (hsound : Sound options line stream conversation)
    (hsteps : Steps ends conversation n next) : Sound options line stream next := by
  induction hsteps with
  | refl => exact hsound
  | tail _ hstep ih => exact ih.step hstep

/-- A conversation that is through has sent the line and heard the first line of the stream. -/
theorem results_eq (hsound : Sound options line stream conversation)
    (hcomplete : conversation.Complete) :
    conversation.connection.written = line ∧
      conversation.results = [.ok [], (heard options stream).mapError .fault, .ok []] := by
  obtain ⟨hscript, hidle⟩ := hcomplete
  cases hsound.stage with
  | closed _ hwritten => exact ⟨hwritten, rfl⟩
  | closing _ hcall _ => simp [hcall] at hidle
  | opened | sending | sent | receiving | received => cases hscript

end Sound

section Starved

variable {options : ConnectOptions} {line stream : Bytes} {ends : Bool}
  {conversation next : Conversation}

/-- Without room for a chunk, a receive of a line that ends had one in an empty pipe. -/
theorem results_length_advance_le {connection : Connection} {effect : Connection.Effect}
    (hsound : Sound options line stream conversation) (hroom : Bytes.roomBound ≤ options.chunk)
    (hbefore : conversation.results.length ≤ 1)
    (hstep : conversation.connection.step .advance = some (connection, effect)) :
    (conversation.moved connection effect).results.length ≤ 1 := by
  obtain ⟨hconnection, -, hstage⟩ := hsound
  cases hstage with
  | sending _ hcall =>
    obtain ⟨-, rfl, rfl⟩ := Connection.advance_of_sending hcall hstep
    exact Nat.le_refl 1
  | @receiving _ receiving hlive hcall hrequest =>
    cases Connection.receives_of_step hcall hstep with
    | receive => exact Nat.le_refl 1
    | received htransition =>
      -- A line would be in the buffer, but nothing ever comes there.
      have hyields := htransition.fromStream?_of_done (hconnection.receiving _ hcall)
        hconnection.source.buffer_length_le []
      have htaken : receiving.taken = [] := by
        cases receiving with
        | exact => cases hrequest
        | «until» => rfl
      rw [hrequest, htaken, (hconnection.starved hroom).1, fromStream?_line_eq_some_iff] at hyields
      obtain ⟨hnothing, ⟨before, rfl, -⟩, -⟩ := hyields
      simp at hnothing
    | broken htransition =>
      exact absurd htransition (hconnection.not_broken_of_starved hroom hlive.uncancelled)
  | opened _ hcall | sent _ hcall => simp [Connection.step, hcall] at hstep
  | received | closing | closed => simp at hbefore

/-- Without room for a chunk, the conversation gets no further than to wait for a line. -/
theorem results_length_step_le (hsound : Sound options line stream conversation)
    (hroom : Bytes.roomBound ≤ options.chunk) (hbefore : conversation.results.length ≤ 1)
    (hstep : Step ends conversation next) : next.results.length ≤ 1 := by
  cases hstep with
  | advance hstep => exact results_length_advance_le hsound hroom hbefore hstep
  | fill hstep _ =>
    cases Connection.transition_of_step hstep with
    | fill => simpa [moved] using hbefore
    | fails _ _ hmove => simp at hmove
  | accept hstep =>
    cases Connection.transition_of_step hstep with
    | accept => simpa [moved, Connection.silent] using hbefore
    | fails _ _ hmove => simp at hmove
  | ask hscript hstep =>
    have hidle := Connection.idle_of_start hstep
    cases hsound.stage with
    | opened hlive | sent hlive =>
      cases hscript
      obtain ⟨rfl, rfl⟩ := Stage.start_of_live hlive rfl (by exact Bytes.roomBound_pos) hstep
      simp [moved, Connection.silent]
    | sending _ hcall | receiving _ hcall => simp [hcall] at hidle
    | received | closing | closed => simp at hbefore

/-- Only with room for a chunk does a conversation come to its end. -/
theorem Sound.room_of_complete {n : Nat} (hsound : Sound options line stream conversation)
    (hbefore : conversation.results = []) (hsteps : Steps ends conversation n next)
    (hcomplete : next.Complete) : options.chunk < Bytes.roomBound := by
  by_contra hroom
  have hlength : next.results.length ≤ 1 := by
    clear hcomplete
    induction hsteps with
    | refl => simp [hbefore]
    | tail hsteps hstep ih =>
      exact results_length_step_le (hsound.steps hsteps) (Nat.le_of_not_lt hroom) ih hstep
  rw [((hsound.steps hsteps).results_eq hcomplete).2] at hlength
  simp at hlength

end Starved

/-- Enough of the stream is there to say what is heard, or it will be: a line that fits into the
buffer, or as much as the buffer holds, or all that the peer will send. -/
def Decided (options : ConnectOptions) (stream : Bytes) (ends : Bool) : Prop :=
  0x0A ∈ stream.take options.capacity ∨ options.capacity ≤ stream.length ∨ ends = true

section Progress

variable {options : ConnectOptions} {line stream : Bytes} {ends : Bool}
  {conversation next : Conversation}

/-- A receive that waits for bytes that nobody sends has seen all of a stream that decides nothing.
-/
theorem not_decided_of_starved {connection : Connection} {receiving : Receiving} {want : Nat}
    (hsound : connection.Sound options) (hconserves : Connection.Conserves stream [] connection)
    (hlive : Live connection) (hwaits : connection.ReceiveWaits receiving)
    (hrequest : receiving.request = .until [0x0A]) (hfill : connection.source.fill = .reading want)
    (hunread : connection.source.unread = []) : ¬ Decided options stream false := by
  have hwhole := Stage.stream_eq hconserves hlive hwaits.call
  have hupToDate := hsound.upToDate hwaits
  have hcapacity := hsound.capacity
  cases receiving with
  | exact => cases hrequest
  | «until» scanner stage =>
    obtain ⟨-, habsent, hroom, -⟩ := hupToDate
    have hdelimiter : scanner.delimiter = [0x0A] := by simpa [Receiving.request] using hrequest
    have hbuffer : connection.source.pipe.buffer = stream := by
      simpa [Receiving.taken, hfill, Fill.held, hunread] using hwhole
    rw [hbuffer, hdelimiter] at habsent
    rw [hbuffer, hcapacity] at hroom
    have hnone := @Receive.fromStream?_until_eq_none options.capacity _ _ [] (by simp) habsent
      (.inl rfl)
    rw [List.append_nil, fromStream?_line_eq_none_iff] at hnone
    rintro (hline | hfull | hends)
    · exact hnone hline
    · omega
    · cases hends

/-- While a receive waits in a stream that decides something, the fill loop goes on. -/
theorem exists_fill_step {connection : Connection} {receiving : Receiving}
    (hsound : connection.Sound options) (hroom : options.chunk < Bytes.roomBound)
    (hconserves : Connection.Conserves stream [] connection)
    (hlive : Live connection) (hwaits : connection.ReceiveWaits receiving)
    (hrequest : receiving.request = .until [0x0A]) (hdecided : Decided options stream ends) :
    ∃ move result, connection.step (.fill move) = some result ∧
      (move = .streamEnd ∨ move = .readError → ends = true ∧ connection.source.unread = []) := by
  obtain ⟨steps, _, later, effects, hrun, _, hnext⟩ := hsound.asks_or_wakes hroom hwaits
  cases steps with
  | succ steps =>
    obtain ⟨result, effect, _, hstep, _⟩ := Connection.run_cons_eq_some hrun
    exact ⟨.proceed, (result, effect), hstep, by simp⟩
  | zero =>
    cases hrun
    obtain ⟨want, hfill, hwant⟩ := hnext.resolve_left (by simp [hwaits.unpermitted])
    by_cases hunread : connection.source.unread = []
    · cases ends with
      | true =>
        have hend := Connection.step_fill (Fill.step_streamEnd hfill hunread)
        exact ⟨.streamEnd, _, hend, fun _ => ⟨rfl, hunread⟩⟩
      | false =>
        exact absurd hdecided
          (not_decided_of_starved hsound hconserves hlive hwaits hrequest hfill hunread)
    · have hdeliver := Connection.step_fill (Fill.step_deliver_one hfill hwant hunread)
      exact ⟨.deliver 1, _, hdeliver, by simp⟩

/-- A call of the script may begin as soon as none is pending. -/
theorem exists_ask {command : Command} {script : List Command}
    (hscript : conversation.script = command :: script)
    (hidle : conversation.connection.call = none) : ∃ next, Step ends conversation next := by
  have hstep : conversation.connection.step (.start command) =
      some (conversation.connection.start command) := by
    simp [Connection.step, hidle]
  exact ⟨_, .ask hscript hstep⟩

/-- As long as the script is not through, a step is possible. -/
theorem exists_step (hsound : Sound options line stream conversation)
    (hroom : options.chunk < Bytes.roomBound) (hdecided : Decided options stream ends)
    (hincomplete : ¬ conversation.Complete) :
    ∃ next, Step ends conversation next := by
  obtain ⟨hconnection, hconserves, hstage⟩ := hsound
  cases hstage with
  | opened _ hcall | sent _ hcall | received _ hcall => exact exists_ask rfl hcall
  | @sending connection rest _ hcall =>
    cases rest with
    | nil =>
      have hstep : connection.step .advance =
          some ({ connection with call := none }, Connection.returns (.ok [])) := by
        simp [Connection.step, hcall, Connection.advance]
      exact ⟨_, .advance hstep⟩
    | cons byte rest =>
      have hstep : connection.step (.accept 1) = some ({ connection with
          written := connection.written ++ [byte], call := some (.sending rest) },
          Connection.silent) := by
        simp [Connection.step, hcall]
      exact ⟨_, .accept hstep⟩
  | receiving hlive hcall hrequest =>
    rcases Connection.advances_or_waits hcall hlive.uncancelled with ⟨result, hstep⟩ | hwaits
    · exact ⟨_, .advance hstep⟩
    · obtain ⟨move, result, hstep, hend⟩ :=
        exists_fill_step hconnection hroom hconserves hlive hwaits hrequest hdecided
      exact ⟨_, .fill hstep hend⟩
  | @closing connection hcancelled hcall =>
    by_cases hfill : connection.source.fill.stopped = true
    · have hstep : ∃ result, connection.step .advance = some result := by
        simp [Connection.step, hcall, Connection.advance, hfill]
      obtain ⟨result, hstep⟩ := hstep
      exact ⟨_, .advance hstep⟩
    · obtain ⟨move, result, hstep, hend, herror⟩ :=
        Connection.exists_fill_step_of_cancelled hcancelled hfill
      exact ⟨_, .fill hstep fun hmove => absurd hmove (not_or.mpr ⟨hend, herror⟩)⟩
  | closed hcall => exact absurd ⟨rfl, hcall⟩ hincomplete

/-- What there is to do in a conversation, in which the given line is sent. -/
def weight (line : Bytes) (conversation : Conversation) : Nat :=
  conversation.connection.weight + (line.length - conversation.connection.written.length) +
    8 * conversation.script.length + 4 * conversation.connection.call.isSome.toNat

/-- Only what the socket accepts is written. -/
theorem written_eq {connection later : Connection} {move : Connection.Move}
    {effect : Connection.Effect} (hstep : connection.step move = some (later, effect))
    (hmove : ∀ n, move ≠ .accept n) : later.written = connection.written := by
  cases Connection.transition_of_step hstep with
  | accept => exact absurd rfl (hmove _)
  | _ => rfl

/-- What is accepted need not be sent any more. -/
theorem weight_accept_lt (hstage : Stage line (heard options stream) conversation) {n : Nat}
    {connection : Connection} {effect : Connection.Effect}
    (hstep : conversation.connection.step (.accept n) = some (connection, effect)) :
    (conversation.moved connection effect).weight line < conversation.weight line := by
  cases Connection.transition_of_step hstep with
  | @accept _ sending hsending hn hrest =>
    cases hstage with
    | sending hlive hcall hwritten =>
      cases hcall.symm.trans hsending
      have hlength := congrArg List.length hwritten
      simp only [List.length_append] at hlength
      simp only [weight, moved, Connection.weight, hcall, Option.elim_some, Call.rank,
        List.length_append, List.length_take, Option.isSome_some]
      omega
    | opened _ hcall | sent _ hcall | receiving _ hcall | received _ hcall | closing _ hcall
    | closed hcall => simp [hcall] at hsending
  | fails _ _ hmove => simp at hmove

/-- A step of a call uses up something. -/
theorem weight_advance_lt (hsound : Sound options line stream conversation)
    {later : Connection} {effect : Connection.Effect}
    (hstep : conversation.connection.step .advance = some (later, effect)) :
    (conversation.moved later effect).weight line < conversation.weight line := by
  have hwritten := written_eq hstep (by simp)
  have hcalls := Bool.toNat_le later.call.isSome
  obtain ⟨hconnection, -, hstage⟩ := hsound
  cases hstage with
  | @receiving connection _ _ hcall _ _ =>
    have hweight : later.weight < connection.weight :=
      Connection.weight_advance_lt hconnection hcall hstep
    simp only [weight, moved, hwritten, hcall, Option.isSome_some, Bool.toNat_true]
    omega
  | sending _ hcall _ =>
    obtain ⟨rfl, rfl, rfl⟩ := Connection.advance_of_sending hcall hstep
    simp only [weight, moved, Connection.weight, hcall, Option.elim_some, Option.elim_none,
      Call.rank, Option.isSome_some, Option.isSome_none, Bool.toNat_true, Bool.toNat_false]
    omega
  | @closing connection _ hcall _ =>
    obtain ⟨-, rfl, rfl⟩ := Connection.advance_of_closing hcall hstep
    -- The end of the call makes up for the permit that completing the pipe gives.
    have hpipe := connection.source.pipe.weight_complete_le
    simp only [weight, moved, Connection.weight, Fill.State.weight, hcall, Option.elim_some,
      Option.elim_none, Call.rank, Option.isSome_some, Option.isSome_none, Bool.toNat_true,
      Bool.toNat_false]
    omega
  | opened _ hcall | sent _ hcall | received _ hcall | closed hcall =>
    simp [Connection.step, hcall] at hstep

theorem weight_lt (hsound : Sound options line stream conversation)
    (hstep : Step ends conversation next) : next.weight line < conversation.weight line := by
  cases hstep with
  | @fill later _ _ hstep _ =>
    have hweight := Connection.weight_fill_lt hsound.connection hstep
    have hwritten := written_eq hstep (by simp)
    have hcall : later.call = conversation.connection.call := by
      obtain ⟨source, -, rfl, -⟩ := Connection.fill_of_step hstep
      rfl
    simp only [weight, moved, hwritten, hcall]
    omega
  | @ask _ _ later _ hscript hstep =>
    have hweight := Connection.weight_start_le hstep
    have hwritten := written_eq hstep (by simp)
    have hcalls := Bool.toNat_le later.call.isSome
    simp only [weight, moved, hwritten, hscript, List.length_cons]
    omega
  | accept hstep => exact weight_accept_lt hsound.stage hstep
  | advance hstep => exact weight_advance_lt hsound hstep

/-- A course of steps is bounded by what there is to use up. -/
theorem add_weight_le {n : Nat} (hsound : Sound options line stream conversation)
    (hsteps : Steps ends conversation n next) :
    n + next.weight line ≤ conversation.weight line := by
  induction hsteps with
  | refl => omega
  | tail hsteps hstep ih =>
    have hweight := weight_lt (hsound.steps hsteps) hstep
    omega

/-- Every conversation in which the stream decides comes to its end. -/
theorem exists_complete {last : Conversation} {n : Nat}
    (hsound : Sound options line stream conversation)
    (hroom : options.chunk < Bytes.roomBound) (hdecided : Decided options stream ends)
    (hsteps : Steps ends conversation n last) :
    ∃ m complete, Steps ends conversation m complete ∧ complete.Complete := by
  by_cases hcomplete : last.Complete
  · exact ⟨n, last, hsteps, hcomplete⟩
  · obtain ⟨later, hstep⟩ := exists_step (hsound.steps hsteps) hroom hdecided hcomplete
    have hweight := weight_lt (hsound.steps hsteps) hstep
    exact exists_complete hsound hroom hdecided (.tail hsteps hstep)
termination_by last.weight line

theorem weight_start {connection : Connection}
    (hconnect : Connection.connect options (.accepted stream) = .ok connection) (line : Bytes) :
    (start connection line).weight line = 13 * stream.length + line.length + 31 := by
  have hweight := Connection.weight_of_connect hconnect
  obtain ⟨-, rfl⟩ := Connection.connect_accepted_eq_ok_iff.mp hconnect
  have hidle : (Connection.fresh options (.empty options.capacity) stream).call = none := rfl
  have hwritten : (Connection.fresh options (.empty options.capacity) stream).written = [] := rfl
  simp only [weight, start, hweight, hidle, hwritten, List.length_nil, List.length_cons,
    Option.isSome_none, Bool.toNat_false]
  omega

end Progress

end Conversation

end CheckHarness.LineStore
