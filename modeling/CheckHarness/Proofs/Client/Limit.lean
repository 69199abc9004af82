import CheckHarness.Cli.Run
import CheckHarness.Proofs.Client

namespace CheckHarness

/-- So many nanoseconds are a span of time: they make up less than 2^64 seconds. -/
def Duration.Fits (nanoseconds : Nat) : Prop :=
  nanoseconds < 18446744073709551616 * 1000000000

theorem Duration.ofNanoseconds?_eq_none_iff {nanoseconds : Nat} :
    ofNanoseconds? nanoseconds = none ↔ ¬ Fits nanoseconds := by
  rw [ofNanoseconds?, Fits]
  split <;> simp_all only [reduceCtorEq, not_true_eq_false, not_false_eq_true]

namespace Task

theorem nanoseconds_timeout (task : Task) :
    task.timeout.nanoseconds = task.timeoutMs.toNat * 1000000 :=
  rfl

/-- No task that was produced has run out of time at the beginning. -/
theorem Produced.timeoutMs_pos {task : Task} (hproduced : task.Produced) :
    0 < task.timeoutMs.toNat := by
  obtain ⟨-, -, -, htimeout, -⟩ := consistent_iff.mp hproduced.valid.consistent
  exact timeoutMs_toNat_pos htimeout

/-- A task that may take as many milliseconds as sixty-four bits can say. -/
def longest : Task :=
  { Execution.havocTask with timeoutMs := 18446744073709551615 }

theorem exists_produced_longest :
    ∃ task : Task, task.Produced ∧ task.timeoutMs.toNat = 18446744073709551615 :=
  ⟨longest, .checked (show ofRequest longest.toRequest = .ok longest from rfl), by decide +kernel⟩

end Task

namespace Config

/-- A configuration with the longest grace. -/
def longestGrace : Config :=
  { requestGrace := { nanoseconds := 18446744073709551615999999999 } }

/-- An environment that sets the longest grace. -/
def graceEnvironment : Environment := fun name =>
  [("ENOCHECKER_REQUEST_TIMEOUT_GRACE", "18446744073709551615s 999999999ns")].lookup name

/-- The longest grace can be set by a variable. -/
theorem fromEnvironment_graceEnvironment : fromEnvironment graceEnvironment = .ok longestGrace := by
  decide +kernel

/-- The longest grace can be set by a document. -/
theorem parse_longestGrace :
    parse "[client]\nrequest_timeout_grace = \"18446744073709551615s 999999999ns\"\n" =
      .ok longestGrace := by
  decide +kernel

/-- No grace is a flaw. -/
theorem validate_withGrace (config : Config) (grace : Duration) :
    ({ config with requestGrace := grace } : Config).validate = config.validate :=
  rfl

end Config

namespace Client

variable {client : Client} {task : Task} {server : Http.Request → Course}

/-- A submission comes to no report just if the sum of timeout and grace is no span of time. -/
theorem submit_eq_none_iff :
    client.submit task server = none ↔
      ¬ Duration.Fits (client.grace.nanoseconds + task.timeoutMs.toNat * 1000000) := by
  rw [submit, Option.map_eq_none_iff, limit?, Duration.add?, Duration.ofNanoseconds?_eq_none_iff,
    Task.nanoseconds_timeout, Nat.add_comm]

/-- A submission comes to a report just if the sum of timeout and grace is a span of time, whatever
the server does. -/
theorem exists_submit_eq_some_iff :
    (∃ report, client.submit task server = some report) ↔
      Duration.Fits (client.grace.nanoseconds + task.timeoutMs.toNat * 1000000) := by
  rw [← Option.ne_none_iff_exists', ne_eq, submit_eq_none_iff, not_not]

/-- With the longest grace no submission has a time limit. -/
theorem submit_of_longestGrace (hproduced : task.Produced)
    (hgrace : client.grace = Config.longestGrace.requestGrace) :
    client.submit task server = none := by
  have htimeout := hproduced.timeoutMs_pos
  have hnanoseconds : client.grace.nanoseconds = 18446744073709551615999999999 := by
    rw [hgrace]
    rfl
  rw [submit_eq_none_iff, Duration.Fits]
  omega

/-- Which submissions come to a report. One does, whatever the server does, just if the grace of the
client and the timeout of the task make up less than 2^64 seconds. A client has a report for every
task just if its grace leaves room for the longest timeout. But every grace passes the check of a
configuration, and with the longest one, which both the environment and a document can set, there is
no report for any task. -/
theorem submits_iff (client : Client) :
    (∀ task server, (∃ report, client.submit task server = some report) ↔
      Duration.Fits (client.grace.nanoseconds + task.timeoutMs.toNat * 1000000)) ∧
    ((∀ task, task.Produced → ∀ server, ∃ report, client.submit task server = some report) ↔
      Duration.Fits (client.grace.nanoseconds + 18446744073709551615 * 1000000)) ∧
    (∀ (config : Config) (grace : Duration),
      ({ config with requestGrace := grace } : Config).validate = config.validate) ∧
    ∃ config environment document, Config.fromEnvironment environment = .ok config ∧
      Config.parse document = .ok config ∧ config.validate = .ok () ∧
      ∀ task, task.Produced → ∀ url server,
        (Client.ofUrl url config.requestGrace).submit task server = none := by
  refine ⟨fun task server => exists_submit_eq_some_iff, ?_, Config.validate_withGrace, ?_⟩
  · constructor
    · intro hall
      obtain ⟨task, hproduced, htimeout⟩ := Task.exists_produced_longest
      have hfits := exists_submit_eq_some_iff.mp (hall task hproduced fun _ => .silence)
      rwa [htimeout] at hfits
    · intro hgrace task _ server
      have htimeout : task.timeoutMs.toNat ≤ 18446744073709551615 :=
        Nat.le_pred_of_lt task.timeoutMs.toNat_lt
      rw [exists_submit_eq_some_iff]
      apply Nat.lt_of_le_of_lt _ hgrace
      exact Nat.add_le_add_left (Nat.mul_le_mul_right _ htimeout) _
  · have hvalid : Config.longestGrace.validate = .ok () := by decide +kernel
    refine ⟨Config.longestGrace, Config.graceEnvironment, _,
      Config.fromEnvironment_graceEnvironment, Config.parse_longestGrace, hvalid, ?_⟩
    intro task hproduced url server
    exact submit_of_longestGrace hproduced rfl

/-- A client that waits for a tenth of a second more has a report about every task. -/
theorem submits_iff_patient :
    Execution.havocTask.Produced ∧
      ∃ report, patientClient.submit Execution.havocTask (delayedDummy 0) = some report := by
  have hproduced : Execution.havocTask.Produced :=
    .checked (show Task.ofRequest Execution.havocTask.toRequest = .ok Execution.havocTask from rfl)
  have hgrace : patientClient.grace.nanoseconds = 100000000 := rfl
  refine ⟨hproduced, (submits_iff patientClient).2.1.mpr ?_ Execution.havocTask hproduced _⟩
  rw [Duration.Fits, hgrace]
  omega

/-- A world in which nobody answers, and in which clients wait for 2^64 - 1 seconds longer than
tasks may take. -/
def patientWorld : Cli.World where
  environment name := [("ENOCHECKER_REQUEST_TIMEOUT_GRACE", "18446744073709551615s")].lookup name
  file _ := none
  unavailable _ := none
  exchange _ _ := .failed
  network _ _ _ := .refuses

/-- Submitting a task crashes, though its configuration passes the check and the task is one that
validation produces. -/
theorem run_patientWorld :
    (∃ config, Config.fromEnvironment patientWorld.environment = .ok config ∧
      config.validate = .ok () ∧ Execution.havocTask.Produced ∧
      ∀ url server,
        (Client.ofUrl url config.requestGrace).submit Execution.havocTask server = none) ∧
    (Cli.run patientWorld ["task", "--url", "http://checker", "--method", "havoc", "--address",
      "10.0.0.1"]).status = 101 := by
  constructor
  · let config : Config := { requestGrace := .ofSeconds 18446744073709551615 }
    have hread : Config.fromEnvironment patientWorld.environment = .ok config := by decide +kernel
    have hvalid : config.validate = .ok () := by decide +kernel
    have htask : Task.ofRequest Execution.havocTask.toRequest = .ok Execution.havocTask := rfl
    have htimeout : Execution.havocTask.timeoutMs.toNat = 1000 := rfl
    refine ⟨config, hread, hvalid, .checked htask, ?_⟩
    intro url server
    have hgrace : (Client.ofUrl url config.requestGrace).grace.nanoseconds =
        18446744073709551615000000000 := rfl
    rw [submit_eq_none_iff, htimeout, hgrace, Duration.Fits]
    omega
  · decide +kernel

end Client

end CheckHarness
