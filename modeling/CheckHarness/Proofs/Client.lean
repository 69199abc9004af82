import CheckHarness.Client.Course
import CheckHarness.Proofs.Api.Submission
import CheckHarness.Server

namespace CheckHarness

namespace BodyCourse

/-- When a body comes to its end, with all its bytes or without if it breaks off. -/
def ending? : BodyCourse → Option (Nat × Option Bytes)
  | .silence => none
  | .failure pause => some (pause, none)
  | .finish pause => some (pause, some [])
  | .chunk pause bytes rest =>
    rest.ending?.map fun (time, outcome) => (pause + time, outcome.map (bytes ++ ·))

/-- What a client gets of a body is decided by its end, unless this comes too late. -/
theorem transfer_eq (course : BodyCourse) (limit : Nat) :
    course.transfer limit =
      match course.ending? with
      | some (time, outcome) => if time < limit then outcome.elim .broken .whole else .stalled
      | none => .stalled := by
  induction course generalizing limit with
  | silence | failure | finish => rfl
  | chunk pause bytes rest ih =>
    rw [transfer, ih, ending?]
    cases rest.ending? with
    | none => split <;> rfl
    | some ending =>
      obtain ⟨time, outcome⟩ := ending
      have hsplit : pause + time < limit ↔ pause < limit ∧ time < limit - pause := by omega
      simp only [Option.map_some, hsplit]
      by_cases hpause : pause < limit <;> by_cases htime : time < limit - pause <;>
        cases outcome <;> simp [hpause, htime, Transfer.after]

/-- A body ends too late, arrives as a whole in time, or breaks off. -/
theorem transfer_cases (course : BodyCourse) (limit : Nat) :
    (∀ time outcome, course.ending? = some (time, outcome) → limit ≤ time) ∨
      (∃ time content, course.ending? = some (time, some content) ∧ time < limit ∧
        course.transfer limit = .whole content) ∨
      course.transfer limit = .broken := by
  cases hending : course.ending? with
  | none => exact .inl nofun
  | some ending =>
    obtain ⟨time, outcome⟩ := ending
    have htransfer := course.transfer_eq limit
    rw [hending] at htransfer
    by_cases htime : time < limit
    · cases outcome with
      | none => exact .inr (.inr (by simpa [htime] using htransfer))
      | some content =>
        exact .inr (.inl ⟨time, content, rfl, htime, by simpa [htime] using htransfer⟩)
    · refine .inl ?_
      rintro _ _ ⟨rfl⟩
      exact Nat.le_of_not_lt htime

end BodyCourse

namespace Course

/-- When the head of an answer comes, or the connection fails. -/
def beginning? : Course → Option Nat
  | .silence => none
  | .failure pause => some pause
  | .head pause _ _ => some pause

/-- The limit is reached before the head of an answer, or after a good head before the end of the
body. -/
inductive TimesOut (limit : Nat) : Course → Prop where
  | beforeHead {course} (hlate : ∀ time, course.beginning? = some time → limit ≤ time) :
    TimesOut limit course
  | beforeEnd {pause body}
    (hlate : ∀ time outcome, body.ending? = some (time, outcome) → limit ≤ pause + time) :
    TimesOut limit (.head pause 200 body)

/-- An answer with this status and this body arrives whole before the limit. -/
inductive Delivers (limit : Nat) (status : UInt16) (content : Bytes) : Course → Prop where
  | mk {pause time body} (hwhole : body.ending? = some (time, some content))
    (hintime : pause + time < limit) : Delivers limit status content (.head pause status body)

variable {course : Course} {limit : Nat}

/-- A server that is too slow is reported as offline. -/
theorem TimesOut.report_exchange (htimesOut : course.TimesOut limit) :
    Client.report (course.exchange limit) = .offline none := by
  cases htimesOut with
  | beforeHead hlate =>
    cases course with
    | silence => rfl
    | failure pause | head pause status body =>
      have hpause : ¬ pause < limit := Nat.not_lt.mpr (hlate pause rfl)
      simp only [exchange, if_neg hpause, Client.report]
  | @beforeEnd pause body hlate =>
    rw [exchange]
    split
    · next hpause =>
      have hstalled : body.transfer (limit - pause) = .stalled := by
        rw [BodyCourse.transfer_eq]
        split
        · next time outcome hending =>
          have htime := hlate time outcome hending
          rw [if_neg (by omega)]
        · rfl
      rw [hstalled]
      rfl
    · rfl

/-- A reply that arrives in time is the answer as it was sent. -/
theorem Delivers.exchange_eq {status : UInt16} {content : Bytes}
    (hdelivers : course.Delivers limit status content) :
    course.exchange limit = .answered status (.whole content) := by
  cases hdelivers with
  | mk hwhole hintime =>
    rw [exchange, if_pos (by omega), BodyCourse.transfer_eq, hwhole]
    simp only [if_pos (Nat.lt_sub_iff_add_lt'.mpr hintime), Option.elim_some]

/-- A server that neither runs into the limit nor delivers a report has failed. -/
theorem report_exchange_eq_internalError (htimesOut : ¬ course.TimesOut limit)
    (hreport : ∀ content message, course.Delivers limit 200 content →
      Report.decode content ≠ .ok message) :
    Client.report (course.exchange limit) = .internalError := by
  have hbegins : ∀ time, course.beginning? = some time → time < limit := by
    intro time htime
    refine Nat.lt_of_not_le fun hlate => htimesOut (.beforeHead fun other hother => ?_)
    obtain rfl := Option.some.inj (htime.symm.trans hother)
    exact hlate
  cases course with
  | silence => exact absurd (.beforeHead nofun) htimesOut
  | failure pause =>
    rw [exchange, if_pos (hbegins pause rfl)]
    rfl
  | head pause status body =>
    have hpause := hbegins pause rfl
    rw [exchange, if_pos hpause]
    by_cases hstatus : status = 200
    · subst hstatus
      rcases body.transfer_cases (limit - pause) with
        hlate | ⟨time, content, hwhole, htime, htransfer⟩ | htransfer
      -- An end after what the head has left of the limit is an end after the limit.
      · refine absurd (.beforeEnd fun time outcome hending => ?_) htimesOut
        have htime := hlate time outcome hending
        omega
      · have hdelivers : Delivers limit 200 content (.head pause 200 body) :=
          .mk hwhole (by omega)
        have hdecode := hreport content
        rw [htransfer]
        cases hread : Report.decode content with
        | ok message => exact absurd hread (hdecode message hdelivers)
        | error fault => simp [Client.report, hread]
      · rw [htransfer]
        rfl
    · simp [Client.report, hstatus]

end Course

/-- The second text is the first one without its NUL characters. -/
inductive DropsNul : List Char → List Char → Prop where
  | nil : DropsNul [] []
  | nul {chars kept} (hrest : DropsNul chars kept) : DropsNul ('\x00' :: chars) kept
  | keep {c chars kept} (hc : c ≠ '\x00') (hrest : DropsNul chars kept) :
    DropsNul (c :: chars) (c :: kept)

/-- The second report is the first one without the NUL characters of its texts. -/
structure Report.DropsNul (report cleaned : Report) : Prop where
  verdict : cleaned.verdict = report.verdict
  message : Option.Rel (fun text kept : String => CheckHarness.DropsNul text.toList kept.toList)
    report.message cleaned.message
  attackInfo : Option.Rel (fun text kept : String => CheckHarness.DropsNul text.toList kept.toList)
    report.attackInfo cleaned.attackInfo

namespace Client

/-- Stripping a text drops its NUL characters and nothing else. -/
theorem dropsNul_stripNul (text : String) : DropsNul text.toList (stripNul text).toList := by
  rw [stripNul, String.toList_ofList]
  induction text.toList with
  | nil => exact .nil
  | cons c chars ih =>
    rw [List.filter_cons]
    by_cases hc : c = '\x00'
    · subst hc
      exact .nul ih
    · rw [if_pos (by simpa using hc)]
      exact .keep hc ih

theorem stripNul_stripNul (text : String) : stripNul (stripNul text) = stripNul text := by
  simp [stripNul, List.filter_filter]

theorem cleaned_cleaned (report : Report) : cleaned (cleaned report) = cleaned report := by
  have htwice : stripNul ∘ stripNul = stripNul := funext stripNul_stripNul
  simp [cleaned, Option.map_map, htwice]

theorem rel_map_stripNul (text : Option String) :
    Option.Rel (fun text kept : String => DropsNul text.toList kept.toList) text
      (text.map stripNul) := by
  cases text with
  | none => exact .none
  | some text => exact .some (dropsNul_stripNul text)

/-- Cleaning a report drops the NUL characters of its texts and nothing else. -/
theorem dropsNul_cleaned (report : Report) : report.DropsNul (cleaned report) :=
  ⟨rfl, rel_map_stripNul report.message, rel_map_stripNul report.attackInfo⟩

variable {client : Client} {task : Task} {limit : Duration}

/-- The time limit is the sum of the timeout and the grace. -/
theorem nanoseconds_of_limit? (hlimit : client.limit? task = some limit) :
    limit.nanoseconds = task.timeout.nanoseconds + client.grace.nanoseconds := by
  rw [limit?, Duration.add?, Duration.ofNanoseconds?] at hlimit
  split at hlimit
  · cases hlimit
    rfl
  · cases hlimit

/-- A report that arrives is passed on without its NUL characters. -/
theorem report_of_delivers {course : Course} {limit : Nat} {content : Bytes} {message : Report}
    (hdelivers : course.Delivers limit 200 content) (hdecode : Report.decode content = .ok message) :
    report (course.exchange limit) = cleaned message := by
  simp [hdelivers.exchange_eq, report, hdecode]

/-- A service of this program answers a submission with the report of the execution. -/
theorem answer_submission (own : Server) (timestamp : String) (hvalid : task.Valid)
    (hsize : (submission task).body.length ≤ Api.maxBodySize) :
    own.answer timestamp (submission task) = .ofReport (own.checker.perform task).report := by
  have hholds : Api.Holds (submission task).body (.valid task) :=
    .valid task.decode_submission hvalid.ofRequest_toRequest
  have hpath : (submission task).path = "/" := rfl
  have hmethod : (submission task).method = "POST" := rfl
  rw [Server.answer, Api.answerWith, Api.answer, if_pos hpath, if_pos hmethod, Api.submit,
    if_neg (Nat.not_lt.mpr hsize), Api.handle_valid hholds]
  rfl

/-- A submission whose time limit is a span of time comes to a report, however the server behaves.
A server that is too slow is offline; a report that arrives is passed on without its NUL characters,
and in every other case there was an internal error. What a service of this program answers in time
is the report of the execution. -/
theorem submit_decided (hlimit : client.limit? task = some limit)
    (server : Http.Request → Course) :
    limit.nanoseconds = task.timeout.nanoseconds + client.grace.nanoseconds ∧
    ∃ report, client.submit task server = some report ∧
      ((server (submission task)).TimesOut limit.nanoseconds → report = ⟨.offline, none, none⟩) ∧
      (∀ content message, (server (submission task)).Delivers limit.nanoseconds 200 content →
        Report.decode content = .ok message →
          message.DropsNul report ∧ report = cleaned message ∧ cleaned report = report) ∧
      (¬ (server (submission task)).TimesOut limit.nanoseconds →
        (∀ content message, (server (submission task)).Delivers limit.nanoseconds 200 content →
          Report.decode content ≠ .ok message) →
          report = ⟨.internalError, none, none⟩) ∧
      (∀ (own : Server) (timestamp : String) (reply : Http.Reply),
        task.Produced → (submission task).body.length ≤ Api.maxBodySize →
          own.answer timestamp (submission task) = reply →
            (server (submission task)).Delivers limit.nanoseconds reply.status reply.body →
              (own.checker.perform task).report.DropsNul report ∧
                report = cleaned (own.checker.perform task).report) := by
  refine ⟨nanoseconds_of_limit? hlimit,
    Client.report ((server (submission task)).exchange limit.nanoseconds), ?_, ?_, ?_, ?_, ?_⟩
  · rw [submit, hlimit, Option.map_some]
  · exact Course.TimesOut.report_exchange
  · intro content message hdelivers hdecode
    rw [report_of_delivers hdelivers hdecode]
    exact ⟨dropsNul_cleaned message, rfl, cleaned_cleaned message⟩
  · exact Course.report_exchange_eq_internalError
  · rintro own timestamp reply hproduced hsize hreply hdelivers
    rw [answer_submission own timestamp hproduced.valid hsize] at hreply
    subst hreply
    simp only [Http.Reply.ofReport, Http.Reply.withJson] at hdelivers
    rw [report_of_delivers hdelivers (Report.decode_encode _)]
    exact ⟨dropsNul_cleaned _, rfl⟩

section Havoc

/-- A client that waits for the havoc task for a tenth of a second more than this may take. -/
def patientClient : Client :=
  .ofUrl "http://checker" (.ofMilliseconds 100)

def dummyServer : Server :=
  ⟨.v4 #v[127, 0, 0, 1] 8000, .dummy⟩

/-- A service that takes a while and then answers in two parts, a nanosecond apart. -/
def delayedDummy (pause : Nat) (request : Http.Request) : Course :=
  let reply := dummyServer.answer "now" request
  .head pause reply.status (.chunk 0 (reply.body.take 3) (.chunk 1 (reply.body.drop 3) (.finish 0)))

/-- Of two services one is heard in time; the other one misses the limit by its last part. -/
theorem submit_decided_havoc :
    patientClient.submit Execution.havocTask (delayedDummy 1000000000) = some (.ok none) ∧
      patientClient.submit Execution.havocTask (delayedDummy 1099999999) = some (.offline none) := by
  have hlimit : patientClient.limit? Execution.havocTask = some { nanoseconds := 1100000000 } := rfl
  have hread : Task.ofRequest Execution.havocTask.toRequest = .ok Execution.havocTask := rfl
  have hproduced : Execution.havocTask.Produced := .checked hread
  have hsize : (submission Execution.havocTask).body.length ≤ Api.maxBodySize := by decide +kernel
  have hreply : dummyServer.answer "now" (submission Execution.havocTask) = .ofReport (.ok none) :=
    answer_submission dummyServer "now" hproduced.valid hsize
  constructor
  · obtain ⟨-, report, hsubmit, -, -, -, hown⟩ :=
      submit_decided hlimit (delayedDummy 1000000000)
    have hdelivers : Course.Delivers 1100000000 (Http.Reply.ofReport (.ok none)).status
        (Http.Reply.ofReport (.ok none)).body
        (delayedDummy 1000000000 (submission Execution.havocTask)) := by
      rw [delayedDummy, hreply]
      exact .mk rfl (by decide)
    rw [hsubmit, (hown dummyServer "now" _ hproduced hsize hreply hdelivers).2]
    rfl
  · obtain ⟨-, report, hsubmit, hlate, -⟩ := submit_decided hlimit (delayedDummy 1099999999)
    have hend : ∀ time outcome,
        (BodyCourse.chunk 0 ((Http.Reply.ofReport (.ok none)).body.take 3)
          (.chunk 1 ((Http.Reply.ofReport (.ok none)).body.drop 3) (.finish 0))).ending? =
            some (time, outcome) → 1100000000 ≤ 1099999999 + time := by
      rintro time outcome ⟨rfl⟩
      decide
    rw [hsubmit, hlate]
    · rfl
    · rw [delayedDummy, hreply]
      exact .beforeEnd hend

end Havoc

end Client

end CheckHarness
