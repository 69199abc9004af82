import CheckHarness.Cli.Run
import CheckHarness.Config.Builder
import CheckHarness.Proofs.Config.Document
import CheckHarness.Proofs.Config.Environment

namespace CheckHarness.Config

/-- What the flags say about the settings. -/
def flagLayer (flags : Flags) : Layer
  | .bindAddress => flags.bindAddress
  | .checkerName => flags.checkerName
  | .servicePort => flags.servicePort
  | _ => none

/-- Flags are one more layer. -/
theorem withFlags_eq_under (config : Config) (flags : Flags) :
    config.withFlags flags = config.under (flagLayer flags) :=
  ext_get fun setting => by cases setting <;> rfl

/-- The tables of the document that was asked for, if its file could be read; none if no document
was asked for. -/
inductive FileHolds : Option (Option Bytes) → List (String × Toml.Value) → Prop where
  | unasked : FileHolds none []
  | document {content text tables} (htext : Bytes.text? content = some text)
    (hparse : Toml.parse? text = some tables) : FileHolds (some (some content)) tables

theorem checked_eq_ok_iff {config result : Config} :
    config.checked = .ok result ↔ config.validate = .ok () ∧ result = config := by
  rw [checked]
  cases config.validate with
  | ok _ => simp [Except.map, eq_comm]
  | error failure => simp [Except.map]

theorem describes_nil : Describes [] :=
  ⟨nofun, nofun⟩

theorem documentLayer_nil : documentLayer [] = fun _ => none :=
  rfl

variable {file : Option (Option Bytes)} {environment : Environment} {flags : Flags}
  {config : Config}

/-- A file is read if it holds a document that describes a configuration. -/
theorem parseFile_eq_ok_iff {content : Option Bytes} :
    parseFile content = .ok config ↔
      ∃ tables, FileHolds (some content) tables ∧ Describes tables ∧
        config = standard.under (documentLayer tables) := by
  rw [parseFile]
  cases htext : content.bind Bytes.text? with
  | none =>
    have hunread : ¬ ∃ tables, FileHolds (some content) tables := by
      rintro ⟨tables, _ | ⟨hbytes, -⟩⟩
      rw [Option.bind_some, hbytes] at htext
      cases htext
    constructor
    · exact nofun
    · rintro ⟨tables, hfile, -⟩
      exact absurd ⟨tables, hfile⟩ hunread
  | some text =>
    obtain ⟨bytes, rfl, hbytes⟩ := Option.bind_eq_some_iff.mp htext
    dsimp only
    rw [parse_eq_ok_iff]
    constructor
    · rintro ⟨tables, hparse, hrest⟩
      exact ⟨tables, .document hbytes hparse, hrest⟩
    · rintro ⟨tables, hfile, hrest⟩
      cases hfile with
      | document hother hparse =>
        obtain rfl := Option.some.inj (hbytes.symm.trans hother)
        exact ⟨tables, hparse, hrest⟩

/-- The configuration without the flags. -/
def belowFlags (file : Option (Option Bytes)) (environment : Environment) :
    Except (Failure Fault) Config :=
  match file with
  | some content => load content environment
  | none => fromEnvironment environment

/-- The flags come last, over a configuration that is already valid. -/
theorem forServer_eq_bind (file : Option (Option Bytes)) (environment : Environment)
    (flags : Flags) :
    forServer file environment flags =
      belowFlags file environment >>= fun config => (config.withFlags flags).checked := by
  cases file <;> rfl

/-- Below the flags stand the environment, the document and the standard, and together they are
valid. -/
theorem belowFlags_eq_ok_iff :
    belowFlags file environment = .ok config ↔
      ∃ tables, FileHolds file tables ∧ Describes tables ∧
        (∀ setting, VariableReads environment setting) ∧
        config = (standard.under (documentLayer tables)).under (environmentLayer environment) ∧
        config.validate = .ok () := by
  cases file with
  | none =>
    rw [belowFlags, fromEnvironment, bind_eq_ok_iff]
    simp only [overridden_eq_ok_iff, checked_eq_ok_iff]
    constructor
    · rintro ⟨_, ⟨hreads, rfl⟩, hvalid, rfl⟩
      refine ⟨[], .unasked, describes_nil, hreads, ?_, hvalid⟩
      rw [documentLayer_nil, under_silent]
    · rintro ⟨tables, hfile, -, hreads, rfl, hvalid⟩
      cases hfile
      rw [documentLayer_nil, under_silent] at hvalid ⊢
      exact ⟨_, ⟨hreads, rfl⟩, hvalid, rfl⟩
  | some content =>
    simp only [belowFlags, load, bind_eq_ok_iff, parseFile_eq_ok_iff, overridden_eq_ok_iff, checked_eq_ok_iff]
    constructor
    · rintro ⟨_, ⟨tables, hfile, hdescribes, rfl⟩, _, ⟨hreads, rfl⟩, hvalid, rfl⟩
      exact ⟨tables, hfile, hdescribes, hreads, rfl, hvalid⟩
    · rintro ⟨tables, hfile, hdescribes, hreads, rfl, hvalid⟩
      exact ⟨_, ⟨tables, hfile, hdescribes, rfl⟩, _, ⟨hreads, rfl⟩, hvalid, rfl⟩

theorem validate_of_belowFlags (hbelow : belowFlags file environment = .ok config) :
    config.validate = .ok () := by
  obtain ⟨_, _, _, _, _, hvalid⟩ := belowFlags_eq_ok_iff.mp hbelow
  exact hvalid

/-- What a server runs with is all four layers, valid with the flags and without them. -/
theorem forServer_eq_ok_iff :
    forServer file environment flags = .ok config ↔
      ∃ tables, FileHolds file tables ∧ Describes tables ∧
        (∀ setting, VariableReads environment setting) ∧
        ((standard.under (documentLayer tables)).under (environmentLayer environment)).validate =
          .ok () ∧
        config = ((standard.under (documentLayer tables)).under
          (environmentLayer environment)).under (flagLayer flags) ∧
        config.validate = .ok () := by
  rw [forServer_eq_bind, bind_eq_ok_iff]
  simp only [belowFlags_eq_ok_iff, checked_eq_ok_iff, withFlags_eq_under]
  constructor
  · rintro ⟨_, ⟨tables, hfile, hdescribes, hreads, rfl, hbelow⟩, hvalid, rfl⟩
    exact ⟨tables, hfile, hdescribes, hreads, hbelow, rfl, hvalid⟩
  · rintro ⟨tables, hfile, hdescribes, hreads, hbelow, rfl, hvalid⟩
    exact ⟨_, ⟨tables, hfile, hdescribes, hreads, rfl, hbelow⟩, hvalid, rfl⟩

theorem ok_of_liftM {result : Except Fault α} {a : α}
    (hlift : (liftM result : Except (Failure Fault) α) = .ok a) : result = .ok a := by
  cases result with
  | ok b => exact congrArg Except.ok (Except.ok.inj hlift)
  | error fault => cases hlift

/-- The checker of a server was made for the configuration, after this was validated. -/
theorem made_of_ofConfig {registry : Registry} {server : Server}
    (hserver : Server.ofConfig config registry = .ok server) :
    config.validate = .ok () ∧ registry.build config.checkerName config = .ok server.checker := by
  simp only [Server.ofConfig, bind_eq_ok_iff] at hserver
  obtain ⟨_, hvalid, address, _, checker, hchecker, hok⟩ := hserver
  cases hok
  exact ⟨hvalid, ok_of_liftM hchecker⟩

/-- A configuration of a server is decided layer by layer, and each of its settings on its own: by
the flag, else by the variable, else by the document, else by the standard. There is one if and only
if the document describes a configuration, every variable that is set can be read, and the result is
valid with the flags and without them. Whichever way a configuration is made, it is valid; and from
one that is not, no server is made, whatever checkers are registered. -/
theorem forServer_layered :
    (∀ (file : Option (Option Bytes)) (environment : Environment) (flags : Flags) (config : Config),
      forServer file environment flags = .ok config ↔
        ∃ tables, FileHolds file tables ∧ Describes tables ∧
          (∀ setting, VariableReads environment setting) ∧
          (∃ below : Config, below.validate = .ok () ∧
            ∀ setting, below.get setting =
              ((environmentLayer environment setting).or (documentLayer tables setting)).getD
                (standard.get setting)) ∧
          config.validate = .ok () ∧
          ∀ setting, config.get setting =
            ((flagLayer flags setting).or
              ((environmentLayer environment setting).or (documentLayer tables setting))).getD
                (standard.get setting)) ∧
    (∀ (world : Cli.World) configFile flags failure,
      forServer (configFile.map world.file) world.environment flags = .error failure →
        Cli.serve world configFile flags = .error failure) ∧
    (∀ content environment config, load content environment = .ok config →
      config.validate = .ok ()) ∧
    (∀ environment config, fromEnvironment environment = .ok config → config.validate = .ok ()) ∧
    (∀ changes config, (ConfigBuilder.new.changeAll changes).build = .ok config →
      config.validate = .ok ()) ∧
    (∀ (config : Config) failure, config.validate = .error failure → ∀ registry,
      Server.ofConfig config registry = .error failure) ∧
    (∀ config registry server, Server.ofConfig config registry = .ok server →
      config.validate = .ok () ∧ registry.build config.checkerName config = .ok server.checker) := by
  refine ⟨?_, ?_, ?_, ?_, ?_, ?_, ?_⟩
  · intro file environment flags config
    rw [forServer_eq_ok_iff]
    constructor
    · rintro ⟨tables, hfile, hdescribes, hreads, hbelow, rfl, hvalid⟩
      refine ⟨tables, hfile, hdescribes, hreads, ⟨_, hbelow, fun setting => ?_⟩, hvalid,
        fun setting => ?_⟩
      · simp
      · simp
    · rintro ⟨tables, hfile, hdescribes, hreads, ⟨below, hbelow, hget⟩, hvalid, hgetAll⟩
      refine ⟨tables, hfile, hdescribes, hreads, ?_, ?_, hvalid⟩
      · convert hbelow using 2
        exact ext_get fun setting => by simp [hget]
      · exact ext_get fun setting => by simp [hgetAll]
  · intro world configFile flags failure hfailure
    rw [Cli.serve, hfailure]
    rfl
  · intro content environment config hload
    exact @validate_of_belowFlags (some content) environment config hload
  · intro environment config hfrom
    exact @validate_of_belowFlags none environment config hfrom
  · intro changes config hbuild
    obtain ⟨hvalid, rfl⟩ := checked_eq_ok_iff.mp hbuild
    exact hvalid
  · intro config failure hinvalid registry
    rw [Server.ofConfig, hinvalid]
    rfl
  · intro config registry server hserver
    exact made_of_ofConfig hserver

/-- A document with two settings, one of which the environment and a flag override. -/
def portFile : Option (Option Bytes) :=
  some (some (Bytes.ofText "[checker]\nname = \"linestore\"\nservice_port = 9000\n"))

def portEnvironment : Environment := fun name =>
  [("ENOCHECKER_SERVICE_PORT", "9001"), ("ENOCHECKER_LOG_FORMAT", "json")].lookup name

def portFlags : Flags :=
  { servicePort := some 9002 }

/-- The flag decides about the port, the variable about the form of the log, and the document about
the checker. -/
theorem forServer_layered_port :
    ∃ config, forServer portFile portEnvironment portFlags = .ok config ∧
      config.validate = .ok () ∧ config.get .servicePort = 9002 ∧ config.get .logFormat = .json ∧
        config.get .checkerName = "linestore" := by
  have hconfig : forServer portFile portEnvironment portFlags = .ok
      { checkerName := "linestore", servicePort := 9002, logFormat := .json } := by
    decide +kernel
  obtain ⟨_, _, _, _, _, hvalid, hget⟩ := (forServer_layered.1 _ _ _ _).mp hconfig
  have hformat : environmentLayer portEnvironment .logFormat = some .json := by decide +kernel
  refine ⟨_, hconfig, hvalid, hget .servicePort, ?_, rfl⟩
  rw [hget .logFormat, hformat]
  rfl

end CheckHarness.Config
