import CheckHarness.Config.Document
import CheckHarness.Config.Environment
import CheckHarness.Config.Validation
import CheckHarness.Text.Bytes

namespace CheckHarness.Config

/-- A configuration file that cannot be read, or is not a text. -/
def unreadable : Fault :=
  .configuration "file" "failed to read the configuration file"

/-- The configuration in a file with the given content. -/
def parseFile (content : Option Bytes) : Except (Failure Fault) Config :=
  match content.bind Bytes.text? with
  | none => .error (.fault unreadable)
  | some text => parse text

/-- A file, then the environment. -/
def load (content : Option Bytes) (environment : Environment) : Except (Failure Fault) Config := do
  let config ← parseFile content
  let config ← config.overridden environment
  config.checked

/-- The standard values, then the environment. -/
def fromEnvironment (environment : Environment) : Except (Failure Fault) Config := do
  let config ← standard.overridden environment
  config.checked

/-- What the command line says about a configuration. -/
structure Flags where
  bindAddress : Option String := none
  checkerName : Option String := none
  servicePort : Option UInt16 := none
  deriving DecidableEq, Repr

/-- The configuration with what the flags say. -/
def withFlags (config : Config) (flags : Flags) : Config :=
  { config with
    bindAddress := flags.bindAddress.getD config.bindAddress
    checkerName := flags.checkerName.getD config.checkerName
    servicePort := flags.servicePort.getD config.servicePort }

/-- The configuration of a server. Layers override each other field by field: standard values, a
document, the environment, flags of the command line. What lies below the flags has to be valid on
its own, and whatever is handed out has been validated. `file` is the file that was asked for, with
its content if it could be read. -/
def forServer (file : Option (Option Bytes)) (environment : Environment) (flags : Flags) :
    Except (Failure Fault) Config := do
  let config ← match file with
    | some content => load content environment
    | none => fromEnvironment environment
  (config.withFlags flags).checked

end CheckHarness.Config
