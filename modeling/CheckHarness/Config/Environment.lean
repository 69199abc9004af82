import CheckHarness.Config.Setting
import CheckHarness.Failure
import CheckHarness.Text.Numeral
import CheckHarness.Time.Duration.Reader

namespace CheckHarness

/-- The values of the variables that are set to a text. A variable with any other value counts as
one that is not set. -/
abbrev Environment := String → Option String

namespace Environment

/-- Whether a variable can have the name: it is not empty and has no equals sign and no NUL. -/
def isName (name : String) : Bool :=
  !name.isEmpty && name.toList.all fun c => c != '=' && c != '\x00'

/-- Whether a variable can have the value. -/
def isValue (value : String) : Bool :=
  value.toList.all (· != '\x00')

/-- The environment with the given variables, if there can be one. -/
def ofList? (entries : List (String × String)) : Option Environment :=
  if entries.all fun entry => isName entry.1 && isValue entry.2 then
    some fun name => entries.lookup name
  else none

end Environment

namespace Setting

/-- The name that a setting's variable has after the common beginning. -/
def key : Setting → String
  | .bindAddress => "BIND_ADDRESS"
  | .checkerName => "CHECKER"
  | .servicePort => "SERVICE_PORT"
  | .serviceId => "SERVICE_ID"
  | .connectTimeout => "CONNECT_TIMEOUT"
  | .bufferCapacity => "BUFFER_CAPACITY"
  | .readChunkSize => "READ_CHUNK_SIZE"
  | .ioTimeout => "IO_TIMEOUT"
  | .logLevel => "LOG_LEVEL"
  | .logFormat => "LOG_FORMAT"
  | .requestGrace => "REQUEST_TIMEOUT_GRACE"

def environmentName (setting : Setting) : String :=
  "ENOCHECKER_" ++ setting.key

/-- A span of time in the variable of a setting. -/
def readDuration (setting : Setting) (text : String) : Except (Failure Fault) Duration :=
  (Duration.parse text).mapError
    (Failure.map fun fault => .configuration setting.environmentName fault.message)

/-- The value that the text of a variable stands for. -/
def read : (setting : Setting) → String → Except (Failure Fault) setting.Value
  | .bindAddress, text => .ok text
  | .checkerName, text => .ok text
  | .servicePort, text => (Numeral.parse16 text).mapError fun fault => .fault (.ofNumeral fault)
  | .serviceId, text => (Numeral.parse64 text).mapError fun fault => .fault (.ofNumeral fault)
  | .connectTimeout, text => readDuration .connectTimeout text
  | .bufferCapacity, text => (Numeral.parse64 text).mapError fun fault => .fault (.ofNumeral fault)
  | .readChunkSize, text => (Numeral.parse64 text).mapError fun fault => .fault (.ofNumeral fault)
  | .ioTimeout, text => (readDuration .ioTimeout text).map some
  | .logLevel, text => .ok text
  | .logFormat, text => (Log.Format.parse text).mapError .fault
  | .requestGrace, text => readDuration .requestGrace text

end Setting

namespace Config

/-- Overrides the given settings, one after the other, with the failure that stopped it. -/
def overrideEach (environment : Environment) :
    List Setting → Config → Config × Option (Failure Fault)
  | [], config => (config, none)
  | setting :: settings, config =>
    match environment setting.environmentName with
    | none => overrideEach environment settings config
    | some text =>
      match setting.read text with
      | .ok value => overrideEach environment settings (config.set setting value)
      | .error failure => (config, some failure)

/-- Overrides all settings that have a variable. The variables are read in a fixed order, and the
first that cannot be read stops the reading; what was read before it stays. -/
def override (environment : Environment) (config : Config) :
    Config × Option (Failure Fault) :=
  overrideEach environment Setting.all config

/-- The configuration with all overrides, if every variable could be read. -/
def overridden (environment : Environment) (config : Config) : Except (Failure Fault) Config :=
  match config.override environment with
  | (config, none) => .ok config
  | (_, some failure) => .error failure

end Config

end CheckHarness
