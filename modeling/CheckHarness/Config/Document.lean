import CheckHarness.Config.Setting
import CheckHarness.Failure
import CheckHarness.Time.Duration.Reader
import CheckHarness.Time.Duration.Writer
import CheckHarness.Toml.Document
import CheckHarness.Toml.Printer

namespace CheckHarness

namespace Config

/-- A text that is no document, or one with values of the wrong types. -/
def badDocument : Fault :=
  .ofDocument "the document does not describe a configuration"

/-- What comes of reading a part of a document. -/
abbrev Read (α : Type) := Except (Failure Fault) α

/-- A value of the wrong type or range makes a bad document. -/
def require (value : Option α) : Read α :=
  match value with
  | some value => .ok value
  | none => .error (.fault badDocument)

end Config

namespace Setting

open Config (Read require badDocument)

/-- The name of a setting in its section. -/
def name : Setting → String
  | .bindAddress => "bind_address"
  | .checkerName => "name"
  | .servicePort => "service_port"
  | .serviceId => "service_id"
  | .connectTimeout => "connect_timeout"
  | .bufferCapacity => "buffer_capacity"
  | .readChunkSize => "read_chunk_size"
  | .ioTimeout => "io_timeout"
  | .logLevel => "level"
  | .logFormat => "format"
  | .requestGrace => "request_timeout_grace"

def text? : Toml.Value → Option String
  | .string text => some text
  | _ => none

/-- An integer from zero to below the limit. -/
def natural? (limit : Nat) : Toml.Value → Option Nat
  | .integer value => if 0 ≤ value ∧ value < limit then some value.toNat else none
  | _ => none

/-- A span of time in a text. -/
def duration (value : Toml.Value) : Read Duration := do
  let text ← require (text? value)
  (Duration.parse text).mapError (Failure.map fun _ => badDocument)

/-- The form of the log: its name, or a table with the name as its only key and nothing in it. -/
def logFormat? : Toml.Value → Option Log.Format
  | .string name => Log.Format.ofName? name
  | .table [(name, .table [])] => Log.Format.ofName? name
  | .table [(name, .array [])] => Log.Format.ofName? name
  | _ => none

def ofToml : (setting : Setting) → Toml.Value → Read setting.Value
  | .bindAddress, value => require (text? value)
  | .checkerName, value => require (text? value)
  | .servicePort, value => require ((natural? UInt16.size value).map UInt16.ofNat)
  | .serviceId, value => require ((natural? UInt64.size value).map UInt64.ofNat)
  | .connectTimeout, value => duration value
  | .bufferCapacity, value => require ((natural? UInt64.size value).map UInt64.ofNat)
  | .readChunkSize, value => require ((natural? UInt64.size value).map UInt64.ofNat)
  | .ioTimeout, value => (duration value).map some
  | .logLevel, value => require (text? value)
  | .logFormat, value => require (logFormat? value)
  | .requestGrace, value => duration value

/-- An integer that a document can hold. -/
def integer? (value : Nat) : Option Toml.Value :=
  if value < Toml.integerBound then some (.integer value) else none

def ofDuration (d : Duration) : Toml.Value :=
  .string d.write

/-- The written values of a setting: one, or none for an absent value. Integers that a document
cannot hold cannot be written. -/
def toToml? : (setting : Setting) → setting.Value → Option (List Toml.Value)
  | .bindAddress, value => some [.string value]
  | .checkerName, value => some [.string value]
  | .servicePort, value => some [.integer value.toNat]
  | .serviceId, value => (integer? value.toNat).map ([·])
  | .connectTimeout, value => some [ofDuration value]
  | .bufferCapacity, value => (integer? value.toNat).map ([·])
  | .readChunkSize, value => (integer? value.toNat).map ([·])
  | .ioTimeout, value => some (value.toList.map ofDuration)
  | .logLevel, value => some [.string value]
  | .logFormat, value => some [.string value.name]
  | .requestGrace, value => some [ofDuration value]

end Setting

namespace ConfigSection

/-- The settings of a section, in their order. -/
def settings (part : ConfigSection) : List Setting :=
  Setting.all.filter fun setting => setting.group = part

/-- The values that a section holds, with their names. A date is read as an empty section. -/
def entries? (part : ConfigSection) : Toml.Value → Option (List (String × Toml.Value))
  | .table entries => some entries
  | .array elements => some ((part.settings.map Setting.name).zip elements)
  | .datetime _ => some []
  | _ => none

end ConfigSection

namespace Config

/-- Sets the one of the settings that has the entry's name; there may be none. -/
def readEntry (settings : List Setting) (config : Config) (entry : String × Toml.Value) :
    Read Config :=
  match settings.find? fun setting => setting.name == entry.1 with
  | none => .ok config
  | some setting => (setting.ofToml entry.2).map (config.set setting)

/-- Sets what the entries of a section say, one after the other. -/
def readEntries (settings : List Setting) (entries : List (String × Toml.Value)) (config : Config) :
    Read Config :=
  entries.foldlM (readEntry settings) config

/-- Sets what a document says under one of its names. -/
def readSection (config : Config) (entry : String × Toml.Value) : Read Config :=
  match ConfigSection.all.find? fun part => part.name == entry.1 with
  | none => .ok config
  | some part => do readEntries part.settings (← require (part.entries? entry.2)) config

/-- The configuration that the tables of a document describe. -/
def ofTables (document : List (String × Toml.Value)) : Read Config :=
  document.foldlM readSection standard

/-- Reads a document. It has a table for each section; whatever it leaves out keeps its standard
value, and what no setting has the name of is skipped. What it says is taken in its order, so that
of several values that cannot be read the first one decides how the reading fails. -/
def parse (text : String) : Read Config := do
  ofTables (← require (Toml.parse? text))

/-- Reads a document that holds the settings of one section at its top. -/
def parseSection (part : ConfigSection) (text : String) : Read Config := do
  readEntries part.settings (← require (Toml.parse? text)) standard

/-- The entries that a section is written with. -/
def entriesOf? (config : Config) (part : ConfigSection) : Option (List (String × Toml.Value)) :=
  (part.settings.mapM fun setting : Setting =>
    (Setting.toToml? setting (config.get setting)).map fun values => values.map fun value =>
      (setting.name, value)).map List.flatten

/-- The sections that a configuration is written with. -/
def toSections? (config : Config) : Option (List Toml.Section) :=
  ConfigSection.all.mapM fun part => (config.entriesOf? part).map fun entries => ⟨part.name, entries⟩

/-- The text of a configuration, unless it has an integer that no document holds or a text that
cannot be written. -/
def render? (config : Config) : Option String :=
  config.toSections?.bind Toml.render?

end Config

end CheckHarness
