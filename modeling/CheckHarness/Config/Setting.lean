import CheckHarness.Config

namespace CheckHarness

/-- A group of settings, which a document keeps in one table. -/
inductive ConfigSection where
  | server
  | checker
  | connection
  | logging
  | client
  deriving DecidableEq, Repr

namespace ConfigSection

def all : List ConfigSection :=
  [.server, .checker, .connection, .logging, .client]

def name : ConfigSection → String
  | .server => "server"
  | .checker => "checker"
  | .connection => "connection"
  | .logging => "logging"
  | .client => "client"

end ConfigSection

/-- The settings of a configuration, one for each field. Reading and changing a configuration
through its settings obeys the usual laws: a setting that was just changed holds the new value, and
every other setting is as before. -/
inductive Setting where
  | bindAddress
  | checkerName
  | servicePort
  | serviceId
  | connectTimeout
  | bufferCapacity
  | readChunkSize
  | ioTimeout
  | logLevel
  | logFormat
  | requestGrace
  deriving DecidableEq, Repr

namespace Setting

def all : List Setting :=
  [.bindAddress, .checkerName, .servicePort, .serviceId, .connectTimeout, .bufferCapacity,
    .readChunkSize, .ioTimeout, .logLevel, .logFormat, .requestGrace]

theorem mem_all (setting : Setting) : setting ∈ all := by
  cases setting <;> decide

def group : Setting → ConfigSection
  | .bindAddress => .server
  | .checkerName | .servicePort | .serviceId => .checker
  | .connectTimeout | .bufferCapacity | .readChunkSize | .ioTimeout => .connection
  | .logLevel | .logFormat => .logging
  | .requestGrace => .client

/-- The values of a setting. -/
abbrev Value : Setting → Type
  | .bindAddress | .checkerName | .logLevel => String
  | .servicePort => UInt16
  | .serviceId | .bufferCapacity | .readChunkSize => UInt64
  | .connectTimeout | .requestGrace => Duration
  | .ioTimeout => Option Duration
  | .logFormat => Log.Format

end Setting

namespace Config

def get (config : Config) : (setting : Setting) → setting.Value
  | .bindAddress => config.bindAddress
  | .checkerName => config.checkerName
  | .servicePort => config.servicePort
  | .serviceId => config.serviceId
  | .connectTimeout => config.connectTimeout
  | .bufferCapacity => config.bufferCapacity
  | .readChunkSize => config.readChunkSize
  | .ioTimeout => config.ioTimeout
  | .logLevel => config.logLevel
  | .logFormat => config.logFormat
  | .requestGrace => config.requestGrace

def set (config : Config) : (setting : Setting) → setting.Value → Config
  | .bindAddress, value => { config with bindAddress := value }
  | .checkerName, value => { config with checkerName := value }
  | .servicePort, value => { config with servicePort := value }
  | .serviceId, value => { config with serviceId := value }
  | .connectTimeout, value => { config with connectTimeout := value }
  | .bufferCapacity, value => { config with bufferCapacity := value }
  | .readChunkSize, value => { config with readChunkSize := value }
  | .ioTimeout, value => { config with ioTimeout := value }
  | .logLevel, value => { config with logLevel := value }
  | .logFormat, value => { config with logFormat := value }
  | .requestGrace, value => { config with requestGrace := value }

/-- Takes over the settings of one section from another configuration. -/
def adopt (config : Config) (group : ConfigSection) (source : Config) : Config :=
  (Setting.all.filter fun setting => setting.group = group).foldl
    (fun config setting => config.set setting (source.get setting)) config

@[simp]
theorem get_set (config : Config) (setting : Setting) (value : setting.Value) :
    (config.set setting value).get setting = value := by
  cases setting <;> rfl

theorem get_set_of_ne (config : Config) {setting other : Setting} (value : setting.Value)
    (h : other ≠ setting) : (config.set setting value).get other = config.get other := by
  cases setting <;> cases other <;> simp_all [get, set]

/-- Two configurations that agree in every setting are the same. -/
theorem ext_get {c d : Config} (h : ∀ setting, c.get setting = d.get setting) : c = d := by
  cases c
  cases d
  congr
  · exact h .bindAddress
  · exact h .checkerName
  · exact h .servicePort
  · exact h .serviceId
  · exact h .connectTimeout
  · exact h .bufferCapacity
  · exact h .readChunkSize
  · exact h .ioTimeout
  · exact h .logLevel
  · exact h .logFormat
  · exact h .requestGrace

end Config

end CheckHarness
