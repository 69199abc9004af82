import CheckHarness.Proofs.Config.Environment

namespace CheckHarness

/-- The variables of two environments. Where both set one, the upper environment counts. -/
def Environment.over (upper lower : Environment) : Environment := fun name =>
  (upper name).or (lower name)

namespace Setting

/-- What is blamed if the variable of the setting cannot be read. -/
def component : Setting → String
  | .servicePort | .serviceId | .bufferCapacity | .readChunkSize => "numeric_value"
  | .logFormat => "logging.format"
  | setting => setting.environmentName

/-- The settings that hold spans of time. -/
def spans : List Setting :=
  [.connectTimeout, .ioTimeout, .requestGrace]

/-- Reading the text as a value of the setting ends in no answer at all. -/
def Crashes (setting : Setting) (text : String) : Prop :=
  setting ∈ spans ∧ Duration.parse text = .error .crash

end Setting

theorem mapError_eq_error_iff {α ε δ : Type} {result : Except ε α} {f : ε → δ} {failure : δ} :
    result.mapError f = .error failure ↔ ∃ fault, result = .error fault ∧ f fault = failure := by
  cases result <;> simp [Except.mapError]

namespace Config

variable {environment upper lower : Environment} {before after : List Setting}
  {config result : Config} {setting : Setting} {text : String} {failure : Failure Fault}

/-- A span that cannot be read is the fault of its variable, or the reader crashes. -/
theorem readDuration_eq_error (hread : setting.readDuration text = .error failure) :
    (∃ message, failure = .fault (.configuration setting.environmentName message)) ∨
      Duration.parse text = .error .crash := by
  obtain ⟨stop, hparse, rfl⟩ := mapError_eq_error_iff.mp hread
  cases stop with
  | fault fault => exact .inl ⟨fault.message, rfl⟩
  | crash => exact .inr hparse

theorem read_eq_error_iff_of_span (hspan : setting ∈ Setting.spans) :
    setting.read text = .error failure ↔ setting.readDuration text = .error failure := by
  simp only [Setting.spans, List.mem_cons, List.not_mem_nil, or_false] at hspan
  rcases hspan with rfl | rfl | rfl
  · exact Iff.rfl
  · rw [Setting.read]
    cases Setting.ioTimeout.readDuration text <;> simp [Except.map]
  · exact Iff.rfl

theorem read_of_crashes (hcrashes : setting.Crashes text) : setting.read text = .error .crash := by
  obtain ⟨hspan, hparse⟩ := hcrashes
  rw [read_eq_error_iff_of_span hspan]
  exact mapError_eq_error_iff.mpr ⟨.crash, hparse, rfl⟩

/-- A number that cannot be read is reported as a configuration error. -/
theorem ofNumeral_of_mapError {α : Type} {result : Except NumeralFault α}
    (hresult : (result.mapError fun fault => .fault (.ofNumeral fault)) = .error failure) :
    ∃ message, failure = .fault (.configuration "numeric_value" message) := by
  obtain ⟨fault, -, rfl⟩ := mapError_eq_error_iff.mp hresult
  exact ⟨_, rfl⟩

/-- A log format that cannot be read is reported under the name of its field. -/
theorem configuration_of_parseFormat {fault : Fault} (hparse : Log.Format.parse text = .error fault) :
    ∃ message, fault = .configuration "logging.format" message := by
  rw [Log.Format.parse] at hparse
  split at hparse
  · cases hparse
  · cases hparse
    exact ⟨_, rfl⟩

/-- A text that is no value of the setting is a fault of the configuration, unless it crashes. -/
theorem read_eq_error (hread : setting.read text = .error failure) :
    (∃ message, failure = .fault (.configuration setting.component message)) ∨
      setting.Crashes text := by
  cases setting with
  | bindAddress | checkerName | logLevel => cases hread
  | servicePort | serviceId | bufferCapacity | readChunkSize =>
    exact .inl (ofNumeral_of_mapError hread)
  | connectTimeout | ioTimeout | requestGrace =>
    have hduration := (read_eq_error_iff_of_span (by decide)).mp hread
    exact (readDuration_eq_error hduration).imp_right fun hcrash => ⟨by decide, hcrash⟩
  | logFormat =>
    obtain ⟨fault, hparse, rfl⟩ := mapError_eq_error_iff.mp hread
    obtain ⟨message, rfl⟩ := configuration_of_parseFormat hparse
    exact .inl ⟨message, rfl⟩

/-- A variable that cannot be read is a configuration error unless the reader crashes. -/
theorem isConfiguration_iff_of_read (hread : setting.read text = .error failure) :
    (∃ message, failure = .fault (.configuration setting.component message)) ↔
      ¬ setting.Crashes text := by
  constructor
  · rintro ⟨message, rfl⟩ hcrashes
    cases hread.symm.trans (read_of_crashes hcrashes)
  · exact (read_eq_error hread).resolve_right

/-- The setting holds the value in its variable afterwards, or the old one if this is not set. -/
def Takes (environment : Environment) (config result : Config) (setting : Setting) : Prop :=
  match environment setting.environmentName with
  | none => result.get setting = config.get setting
  | some text => setting.read text = .ok (result.get setting)

/-- A setting takes what its variable says, and else stays. -/
theorem takes_iff (hreads : VariableReads environment setting) :
    Takes environment config result setting ↔
      result.get setting = (environmentLayer environment setting).getD (config.get setting) := by
  unfold Takes
  cases hset : environment setting.environmentName with
  | none => rw [environmentLayer_of_unset hset, Option.getD_none]
  | some text =>
    obtain ⟨value, hvalue⟩ := hreads text hset
    rw [environmentLayer_of_set hset]
    simp only [hvalue, Except.ok.injEq]
    exact eq_comm

theorem variableReads_over (hupper : VariableReads upper setting)
    (hlower : VariableReads lower setting) : VariableReads (upper.over lower) setting := by
  intro text hset
  rcases Option.or_eq_some_iff.mp hset with hset | ⟨-, hset⟩
  · exact hupper text hset
  · exact hlower text hset

/-- The upper environment decides where it says something. -/
theorem environmentLayer_over (hupper : VariableReads upper setting) :
    environmentLayer (upper.over lower) setting =
      (environmentLayer upper setting).or (environmentLayer lower setting) := by
  unfold environmentLayer Environment.over
  cases hset : upper setting.environmentName with
  | none => rfl
  | some text =>
    obtain ⟨value, hvalue⟩ := hupper text hset
    simp [hvalue, Except.toOption]

/-- Two environments, one over the other, are two layers. -/
theorem under_environmentLayer_over (hupper : ∀ setting, VariableReads upper setting) :
    config.under (environmentLayer (upper.over lower)) =
      (config.under (environmentLayer lower)).under (environmentLayer upper) := by
  refine ext_get fun setting => ?_
  simp only [get_under, environmentLayer_over (hupper setting), Option.getD_or]

/-- Overriding goes on with what the settings before have made of the configuration. -/
theorem overrideEach_append (hbefore : overrideEach environment before config = (result, none)) :
    overrideEach environment (before ++ after) config = overrideEach environment after result := by
  induction before generalizing config with
  | nil =>
    cases hbefore
    rfl
  | cons setting before ih =>
    rw [List.cons_append, overrideEach]
    rw [overrideEach] at hbefore
    cases hset : environment setting.environmentName with
    | none =>
      rw [hset] at hbefore
      exact ih hbefore
    | some text =>
      rw [hset] at hbefore
      dsimp only at hbefore ⊢
      cases hread : setting.read text with
      | ok value =>
        rw [hread] at hbefore
        exact ih hbefore
      | error failure =>
        rw [hread] at hbefore
        cases hbefore

/-- The first variable that cannot be read stops the overrides, after those before it. -/
theorem override_eq_of_first (hall : Setting.all = before ++ setting :: after)
    (hbefore : ∀ other ∈ before, VariableReads environment other)
    (hset : environment setting.environmentName = some text)
    (hread : setting.read text = .error failure) :
    config.override environment =
      (config.under (only before (environmentLayer environment)), some failure) := by
  have hdistinct : before.Nodup := by
    have hnodup : Setting.all.Nodup := by decide
    rw [hall] at hnodup
    exact (List.nodup_append.mp hnodup).1
  have hreached : overrideEach environment before config =
      (config.under (only before (environmentLayer environment)), none) :=
    (overrideEach_eq_iff hdistinct).mpr ⟨hbefore, rfl⟩
  rw [override, hall, overrideEach_append hreached, overrideEach, hset]
  dsimp only
  rw [hread]

/-- A variable that cannot be read is set, and its reading fails. -/
theorem exists_of_not_variableReads (hunread : ¬ VariableReads environment setting) :
    ∃ text failure, environment setting.environmentName = some text ∧
      setting.read text = .error failure := by
  cases hset : environment setting.environmentName with
  | none => exact absurd (variableReads_of_unset hset) hunread
  | some text =>
    rw [variableReads_iff_of_set hset] at hunread
    cases hread : setting.read text with
    | ok value => exact absurd ⟨value, hread⟩ hunread
    | error failure => exact ⟨text, failure, rfl, hread⟩

/-- If not every variable can be read, there is a first one. -/
theorem exists_first_unread (hunread : ¬ ∀ setting, VariableReads environment setting) :
    ∃ before setting after text failure, Setting.all = before ++ setting :: after ∧
      (∀ other ∈ before, VariableReads environment other) ∧
      environment setting.environmentName = some text ∧ setting.read text = .error failure := by
  classical
  cases hfind : Setting.all.find? fun setting => ¬ VariableReads environment setting with
  | none =>
    refine absurd (fun setting => ?_) hunread
    simpa using List.find?_eq_none.mp hfind setting setting.mem_all
  | some setting =>
    obtain ⟨hsetting, before, after, hall, hbefore⟩ := List.find?_eq_some_iff_append.mp hfind
    obtain ⟨text, failure, hset, hread⟩ :=
      exists_of_not_variableReads (of_decide_eq_true hsetting)
    exact ⟨before, setting, after, text, failure, hall, by simpa using hbefore, hset, hread⟩

/-- If all variables that are set can be read, every setting takes the value of its own, and doing
it again changes nothing; of two environments, one after the other, the later counts more. Otherwise
the first variable that cannot be read, in the order of the settings, decides. What is before it is
overridden, nothing else, and it is told as a fault of the configuration just if it does not crash.
-/
theorem override_decided (environment : Environment) (config : Config) :
    Setting.all.map Setting.environmentName =
      ["ENOCHECKER_BIND_ADDRESS", "ENOCHECKER_CHECKER", "ENOCHECKER_SERVICE_PORT",
        "ENOCHECKER_SERVICE_ID", "ENOCHECKER_CONNECT_TIMEOUT", "ENOCHECKER_BUFFER_CAPACITY",
        "ENOCHECKER_READ_CHUNK_SIZE", "ENOCHECKER_IO_TIMEOUT", "ENOCHECKER_LOG_LEVEL",
        "ENOCHECKER_LOG_FORMAT", "ENOCHECKER_REQUEST_TIMEOUT_GRACE"] ∧
    ((∀ setting, VariableReads environment setting) →
      ∃ result : Config, config.override environment = (result, none) ∧
        (∀ setting, Takes environment config result setting) ∧
        result.override environment = (result, none)) ∧
    (∀ later : Environment, (∀ setting, VariableReads environment setting) →
      (∀ setting, VariableReads later setting) →
      ∃ middle result : Config, config.override environment = (middle, none) ∧
        middle.override later = (result, none) ∧
        config.override (later.over environment) = (result, none)) ∧
    ((¬ ∀ setting, VariableReads environment setting) →
      ∃ before setting after text failure, ∃ result : Config,
        Setting.all = before ++ setting :: after ∧
        (∀ other ∈ before, VariableReads environment other) ∧
        environment setting.environmentName = some text ∧ setting.read text = .error failure ∧
        config.override environment = (result, some failure) ∧
        (∀ other ∈ before, Takes environment config result other) ∧
        (∀ other, other ∉ before → result.get other = config.get other) ∧
        ((∃ message, failure = .fault (.configuration setting.component message)) ↔
          ¬ setting.Crashes text)) := by
  refine ⟨by decide, ?_, ?_, ?_⟩
  · intro hreads
    refine ⟨_, override_eq_iff.mpr ⟨hreads, rfl⟩, fun setting => ?_,
      override_eq_iff.mpr ⟨hreads, ext_get fun setting => ?_⟩⟩
    · exact (takes_iff (hreads setting)).mpr (get_under ..)
    -- Laying the same layer a second time changes nothing.
    · simp only [get_under]
      cases environmentLayer environment setting <;> rfl
  · intro later hreads hlater
    refine ⟨_, _, override_eq_iff.mpr ⟨hreads, rfl⟩, override_eq_iff.mpr ⟨hlater, rfl⟩, ?_⟩
    rw [override_eq_iff, under_environmentLayer_over hlater]
    exact ⟨fun setting => variableReads_over (hlater setting) (hreads setting), rfl⟩
  · intro hunread
    obtain ⟨before, setting, after, text, failure, hall, hbefore, hset, hread⟩ :=
      exists_first_unread hunread
    refine ⟨before, setting, after, text, failure, _, hall, hbefore, hset, hread,
      override_eq_of_first hall hbefore hset hread, fun other hother => ?_, fun other hother => ?_,
      isConfiguration_iff_of_read hread⟩
    · rw [takes_iff (hbefore other hother), get_under, only, if_pos hother]
    · rw [get_under, only, if_neg hother, Option.getD_none]

/-- Variables that can be read, but for the format of the log. -/
def formatEnvironment (format : String) : Environment := fun name =>
  [("ENOCHECKER_REQUEST_TIMEOUT_GRACE", "2s"), ("ENOCHECKER_LOG_FORMAT", format),
    ("ENOCHECKER_SERVICE_PORT", "+80")].lookup name

/-- The format of the log may be written in any case, but it cannot be any word. -/
theorem override_decided_format :
    (∃ result : Config, standard.override (formatEnvironment "JSON") = (result, none) ∧
      result.override (formatEnvironment "JSON") = (result, none)) ∧
    ∃ before setting after, ∃ result : Config, ∃ message,
      Setting.all = before ++ setting :: after ∧ setting.component = "logging.format" ∧
      standard.override (formatEnvironment "yaml") =
        (result, some (.fault (.configuration "logging.format" message))) ∧
      result.get .servicePort = 80 ∧ result.get .requestGrace = standard.get .requestGrace := by
  constructor
  · obtain ⟨-, hsame, -⟩ := override_decided (formatEnvironment "JSON") standard
    have hread : standard.override (formatEnvironment "JSON") =
        ({ servicePort := 80, logFormat := .json, requestGrace := .ofSeconds 2 }, none) := by
      decide +kernel
    obtain ⟨result, hresult, -, hagain⟩ := hsame (override_eq_iff.mp hread).1
    exact ⟨result, hresult, hagain⟩
  · obtain ⟨-, hsame, -, hfirst⟩ := override_decided (formatEnvironment "yaml") standard
    have hstop : standard.override (formatEnvironment "yaml") = ({ servicePort := 80 }, some (.fault
        (.configuration "logging.format" "unknown format 'yaml', expected text or json"))) := by
      decide +kernel
    have hunread : ¬ ∀ setting, VariableReads (formatEnvironment "yaml") setting := by
      intro hreads
      obtain ⟨result, hresult, -⟩ := hsame hreads
      rw [hstop] at hresult
      cases hresult
    obtain ⟨before, setting, after, text, _, _, hall, -, -, hread, hresult, -, -, hfault⟩ :=
      hfirst hunread
    rw [hstop] at hresult
    cases hresult
    have hcrashes : ¬ setting.Crashes text := by
      intro hcrashes
      cases hread.symm.trans (read_of_crashes hcrashes)
    obtain ⟨message, hfailure⟩ := hfault.mpr hcrashes
    injection hfailure with hfailure
    injection hfailure with hcomponent
    exact ⟨before, setting, after, _, _, hall, hcomponent.symm, hstop, rfl, rfl⟩

/-- A span of 2^64 seconds, the last of which is made up of nanoseconds. -/
def crashEnvironment : Environment := fun name =>
  [("ENOCHECKER_CONNECT_TIMEOUT", "18446744073709551615s 1000000000ns")].lookup name

/-- Not every variable that cannot be read is told as a fault. -/
theorem override_eq_crash :
    ¬ VariableReads crashEnvironment .connectTimeout ∧
      ¬ ∃ component message, (standard.override crashEnvironment).2 =
        some (.fault (.configuration component message)) := by
  have hcrash : standard.override crashEnvironment = (standard, some .crash) := by decide +kernel
  constructor
  · intro hreads
    obtain ⟨value, hvalue⟩ := hreads _ rfl
    have hread : Setting.readDuration .connectTimeout "18446744073709551615s 1000000000ns" =
        .error .crash := by decide +kernel
    cases hread.symm.trans hvalue
  · rw [hcrash]
    rintro ⟨component, message, hfault⟩
    cases hfault

end Config

end CheckHarness
