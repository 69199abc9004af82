import CheckHarness.Proofs.LineStore.Conversation
import CheckHarness.Proofs.LineStore.Exchange

namespace CheckHarness.LineStore

/-- What a task is told about a store that sends the stream, and ends it or not, where the buffer
has the given capacity. -/
inductive Judged (task : Task) (capacity : Nat) (stream : Bytes) (ends : Bool) : Report → Prop where
  | agrees {line rest} (hstream : stream = line ++ rest) (hline : IsLine line)
    (hfits : line.length ≤ capacity) (hagrees : Agrees line task.expectedText) :
    Judged task capacity stream ends ⟨.ok, none, task.published⟩
  | disagrees {text rest} (hstream : stream = Bytes.ofText text ++ rest)
    (hline : IsLine (Bytes.ofText text)) (hfits : (Bytes.ofText text).length ≤ capacity)
    (hdisagrees : ¬ Agrees (Bytes.ofText text) task.expectedText) :
    Judged task capacity stream ends ⟨.mumble, some task.method.complaint, none⟩
  | invalid {line rest} (hstream : stream = line ++ rest) (hline : IsLine line)
    (hfits : line.length ≤ capacity) (hinvalid : ∀ text, line ≠ Bytes.ofText text) :
    Judged task capacity stream ends ⟨.mumble, some "Service returned invalid UTF-8", none⟩
  | silent (habsent : 0x0A ∉ stream.take capacity) (hend : capacity ≤ stream.length ∨ ends = true) :
    Judged task capacity stream ends ⟨.offline, some "Connection error", none⟩

/-- The report about what was heard. -/
def reportOf (task : Task) (received : Except Fault Bytes) : Report :=
  Report.ofConclusion ((exchangeOf task).conclude received) false

variable {task : Task} {options : ConnectOptions} {stream : Bytes} {ends : Bool}

theorem heard_of_line {line rest : Bytes} (hstream : stream = line ++ rest) (hline : IsLine line)
    (hfits : line.length ≤ options.capacity) : heard options stream = .ok line := by
  rw [heard, fromStream?_line_eq_some_iff.mpr ⟨hstream, hline, hfits⟩]

theorem heard_of_absent (habsent : 0x0A ∉ stream.take options.capacity) :
    heard options stream = .error (.offline "Connection error") := by
  rw [heard, fromStream?_line_eq_none_iff.mpr habsent]
  rfl

theorem reportOf_ok (line : Bytes) :
    reportOf task (.ok line) = Report.ofConclusion ((exchangeOf task).judge line) false :=
  rfl

/-- The verdict is the report about what is heard. -/
theorem Judged.eq_reportOf {report : Report}
    (hjudged : Judged task options.capacity stream ends report) :
    report = reportOf task (heard options stream) := by
  cases hjudged with
  | agrees hstream hline hfits hagrees =>
    rw [heard_of_line hstream hline hfits, reportOf_ok, judge_of_agrees hagrees]
    rfl
  | disagrees hstream hline hfits hdisagrees =>
    rw [heard_of_line hstream hline hfits, reportOf_ok, judge_of_disagrees hdisagrees]
    rfl
  | invalid hstream hline hfits hinvalid =>
    rw [heard_of_line hstream hline hfits, reportOf_ok, judge_of_invalid hinvalid]
    rfl
  | silent habsent _ =>
    rw [heard_of_absent habsent]
    rfl

/-- There is a verdict only where the stream decides it. -/
theorem Judged.decided {report : Report}
    (hjudged : Judged task options.capacity stream ends report) :
    Conversation.Decided options stream ends := by
  have hreceived : ∀ {line rest : Bytes}, stream = line ++ rest → IsLine line →
      line.length ≤ options.capacity → 0x0A ∈ stream.take options.capacity := by
    intro line rest hstream hline hfits
    by_contra habsent
    have hnone := fromStream?_line_eq_none_iff.mpr habsent
    rw [fromStream?_line_eq_some_iff.mpr ⟨hstream, hline, hfits⟩] at hnone
    cases hnone
  cases hjudged with
  | agrees hstream hline hfits | disagrees hstream hline hfits | invalid hstream hline hfits =>
    exact .inl (hreceived hstream hline hfits)
  | silent _ hend => exact .inr hend

theorem exists_judged (task : Task) (hdecided : Conversation.Decided options stream ends) :
    ∃ report, Judged task options.capacity stream ends report := by
  by_cases hmem : 0x0A ∈ stream.take options.capacity
  · obtain ⟨line, rest, hstream, hline, hfits⟩ := exists_line_of_mem hmem
    by_cases hvalid : ∃ text, line = Bytes.ofText text
    · obtain ⟨text, rfl⟩ := hvalid
      by_cases hagrees : Agrees (Bytes.ofText text) task.expectedText
      · exact ⟨_, .agrees hstream hline hfits hagrees⟩
      · exact ⟨_, .disagrees hstream hline hfits hagrees⟩
    · exact ⟨_, .invalid hstream hline hfits (not_exists.mp hvalid)⟩
  · exact ⟨_, .silent hmem (hdecided.resolve_left hmem)⟩

theorem existsUnique_judged (task : Task) (hdecided : Conversation.Decided options stream ends) :
    ∃! report, Judged task options.capacity stream ends report := by
  obtain ⟨report, hjudged⟩ := exists_judged task hdecided
  refine ⟨report, hjudged, ?_⟩
  intro other hother
  rw [hjudged.eq_reportOf, hother.eq_reportOf]

section Perform

/-- An operation that comes to its conclusion in the first poll. -/
inductive Concludes (conclusion : Conclusion) : Operation → Prop where
  | finish : Concludes conclusion (.finish conclusion)
  | log (event : Log.Event) : Concludes conclusion (.log event (.finish conclusion))

/-- An operation that comes to its conclusion in a turn at the beginning ends in time. -/
theorem endsWith_first {turn : Turn} {turns : List Turn} {conclusion : Conclusion}
    (htimeout : task.timeoutMs ≠ 0) (hnow : turn.now = 0) (hcancelled : turn.cancelled = .fresh)
    (hcancels : turn.poll.cancels = .fresh)
    (hending : turn.poll.ending = some (.returned conclusion)) :
    Guarded.EndsWith task.timeoutMs.toNat .fresh (turn :: turns) [] turn (.returned conclusion) ∧
      (Execution.tokensAtEnd task .fresh (turn :: turns)).cancelled = false := by
  have hdeadline := Task.timeoutMs_toNat_pos htimeout
  have hends : Guarded.EndsWith task.timeoutMs.toNat .fresh (turn :: turns) [] turn
      (.returned conclusion) := by
    refine ⟨⟨⟨turns, rfl⟩, trivial⟩, ⟨?_, by rw [hnow]; exact hdeadline⟩, hending⟩
    rw [hcancelled]
    rfl
  refine ⟨hends, ?_⟩
  rw [Execution.tokensAtEnd, hends.run_eq.1, List.nil_append, Tokens.after, hcancelled, hcancels]
  rfl

/-- An operation that concludes in time is reported by its conclusion. -/
theorem Concludes.report_eq {conclusion : Conclusion} {operation : Operation}
    (hconcludes : Concludes conclusion operation) (htimeout : task.timeoutMs ≠ 0) :
    (Execution.run task .fresh (operation.turns task.timeoutMs.toNat none)).report =
      Report.ofConclusion conclusion false := by
  have hturns : ∃ turn, operation.turns task.timeoutMs.toNat none =
      [turn, Operation.deadlineTurn task.timeoutMs.toNat] ∧ turn.now = 0 ∧
        turn.cancelled = .fresh ∧ turn.poll.cancels = .fresh ∧
        turn.poll.ending = some (.returned conclusion) := by
    cases hconcludes <;> exact ⟨_, rfl, rfl, rfl, rfl, rfl⟩
  obtain ⟨turn, hturns, hnow, hcancelled, hcancels, hending⟩ := hturns
  rw [hturns]
  obtain ⟨hends, huncancelled⟩ := endsWith_first htimeout hnow hcancelled hcancels hending
  exact Execution.report_of_endsWith hends huncancelled

/-- Where the stream decides, the conversation ends at once with what is heard. -/
theorem concludes_receiveLine (exchange : Exchange) (hroom : options.chunk < Bytes.roomBound)
    (hdecided : Conversation.Decided options stream ends) :
    Concludes (exchange.conclude (heard options stream))
      (receiveLine options stream ends fun received => .finish (exchange.conclude received)) := by
  rw [receiveLine, if_neg (Nat.not_le_of_lt hroom)]
  split
  · rename_i line rest hreceived
    rw [heard, hreceived]
    exact .finish
  · rename_i hnone
    have habsent := fromStream?_line_eq_none_iff.mp hnone
    rw [heard_of_absent habsent]
    split
    · exact .log _
    · rename_i hroom
      rw [(hdecided.resolve_left habsent).resolve_left hroom, if_pos rfl]
      exact .log _

/-- The checker reports what is heard from the peer. -/
theorem report_perform (hvalid : task.Valid) (hfits : options.Fits) (hdecided : Conversation.Decided options stream ends)
    {port : UInt16} {network : String → UInt16 → Bytes → Peer}
    (hnetwork : network task.address port task.storeRequest.line = .answers stream ends) :
    ((checker options port network).perform task).report =
      reportOf task (heard options stream) := by
  have hconsistent := hvalid.consistent
  obtain ⟨-, -, -, htimeout, -⟩ := Task.consistent_iff.mp hconsistent
  have hoperation : (checker options port network).operationFor task =
      receiveLine options stream ends fun received =>
        .finish ((exchangeOf task).conclude received) := by
    have hpeer : network task.address port (exchangeOf task).request.line =
        .answers stream ends := hnetwork
    simp only [Checker.operationFor, checker, operation, exchange_of_consistent hconsistent, hpeer,
      converse, if_neg (Nat.not_le_of_lt hfits.capacity)]
  have hconcludes := concludes_receiveLine (exchangeOf task) hfits.chunk hdecided
  rw [← hoperation] at hconcludes
  exact hconcludes.report_eq htimeout

end Perform

/-- What a valid task is told about a store is decided by the first line of the store's stream. A
line that fits into the buffer decides whatever follows it; where none fits or comes, the store is
offline. However the stream is cut into reads and the steps are ordered, the conversation on a
connection goes on until the line is sent, the first line is received and the connection is closed,
in a number of steps bounded by the stream and the line, unless there is no room for what is read at
a time; and whoever executes the task and is not cancelled reports accordingly, as does the checker
itself with options that there is room for. -/
theorem verdict_of_first_line (hvalid : task.Valid) (options : ConnectOptions) (stream : Bytes)
    (ends : Bool) :
    (Conversation.Decided options stream ends →
      ∃! report, Judged task options.capacity stream ends report) ∧
    ∀ report, Judged task options.capacity stream ends report →
      ∃ asked, exchange task = .ok asked ∧
        (∀ start, Connection.connect options (.accepted stream) = .ok start → ∀ n conversation,
          Conversation.Steps ends (.start start asked.request.line) n conversation →
            (options.chunk < Bytes.roomBound → ¬ conversation.Complete →
              ∃ next, Conversation.Step ends conversation next) ∧
            n ≤ 13 * stream.length + asked.request.line.length + 31 ∧
            (conversation.Complete → ∃ received,
              conversation.connection.written = asked.request.line ∧
              conversation.results = [.ok [], received.mapError .fault, .ok []] ∧
              ∀ tokens turns before turn,
                Guarded.EndsWith task.timeoutMs.toNat tokens turns before turn
                  (.returned (asked.conclude received)) →
                (Execution.tokensAtEnd task tokens turns).cancelled = false →
                  (Execution.run task tokens turns).report = report)) ∧
        (options.Fits → ∀ port network,
          network task.address port asked.request.line = .answers stream ends →
            ((checker options port network).perform task).report = report) := by
  refine ⟨existsUnique_judged task, ?_⟩
  intro report hjudged
  have hdecided := hjudged.decided
  refine ⟨exchangeOf task, exchange_of_consistent hvalid.consistent, ?_, ?_⟩
  · intro start hconnect n conversation hsteps
    have hstart := Conversation.Sound.start hconnect (exchangeOf task).request.line
    have hsound := hstart.steps hsteps
    refine ⟨fun hroom => Conversation.exists_step hsound hroom hdecided, ?_, ?_⟩
    · have hweight := Conversation.add_weight_le hstart hsteps
      rw [Conversation.weight_start hconnect] at hweight
      omega
    · intro hcomplete
      obtain ⟨hwritten, hresults⟩ := hsound.results_eq hcomplete
      refine ⟨heard options stream, hwritten, hresults, ?_⟩
      intro tokens turns before turn hends huncancelled
      rw [hjudged.eq_reportOf]
      exact Execution.report_of_endsWith hends huncancelled
  · intro hfits port network hnetwork
    rw [hjudged.eq_reportOf]
    exact report_perform hvalid hfits hdecided hnetwork

/-- A line with two line ends and a byte after it, in a buffer that holds just the line. -/
theorem verdict_of_first_line_stored :
    ((checker ⟨.zero, 4, 1, none, ""⟩ 0 fun _ _ _ =>
        .answers [0x4F, 0x4B, 0x0D, 0x0A, 0xFF] false).perform Execution.secondTask).report =
      ⟨.ok, none, some "flag_s1_r1_t1_i0"⟩ := by
  have hvalid : Execution.secondTask.Valid := ⟨Execution.secondTask.toRequest, rfl⟩
  have hagrees : Agrees [0x4F, 0x4B, 0x0D, 0x0A] Execution.secondTask.expectedText :=
    ⟨['O', 'K'], ['\r', '\n'], by decide, by simp, by simp, rfl⟩
  have hline : IsLine [0x4F, 0x4B, 0x0D, 0x0A] := ⟨[0x4F, 0x4B, 0x0D], rfl, by decide⟩
  obtain ⟨-, hverdict⟩ := verdict_of_first_line hvalid ⟨.zero, 4, 1, none, ""⟩
    [0x4F, 0x4B, 0x0D, 0x0A, 0xFF] false
  obtain ⟨_, -, -, hreport⟩ := hverdict _ (.agrees rfl hline (by decide) hagrees)
  exact hreport ⟨by decide, by decide⟩ 0 _ rfl

end CheckHarness.LineStore
