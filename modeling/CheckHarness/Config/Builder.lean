import CheckHarness.Config.Setting
import CheckHarness.Config.Validation

namespace CheckHarness

/-- A configuration that is put together step by step, from the standard values. Some settings are
said one by one, others for a whole section. What was said last counts, and the result is checked
like any other configuration. -/
structure ConfigBuilder where
  config : Config
  deriving DecidableEq, Repr

namespace ConfigBuilder

def new : ConfigBuilder :=
  ⟨.standard⟩

/-- One thing that can be said to a builder. Sections are taken over from a configuration. -/
inductive Change where
  | bindAddress (address : String)
  | checkerName (name : String)
  | servicePort (port : UInt16)
  | connection (source : Config)
  | logging (source : Config)
  | client (source : Config)
  deriving DecidableEq, Repr

def change (builder : ConfigBuilder) : Change → ConfigBuilder
  | .bindAddress address => ⟨builder.config.set .bindAddress address⟩
  | .checkerName name => ⟨builder.config.set .checkerName name⟩
  | .servicePort port => ⟨builder.config.set .servicePort port⟩
  | .connection source => ⟨builder.config.adopt .connection source⟩
  | .logging source => ⟨builder.config.adopt .logging source⟩
  | .client source => ⟨builder.config.adopt .client source⟩

def changeAll (builder : ConfigBuilder) (changes : List Change) : ConfigBuilder :=
  changes.foldl change builder

/-- The configuration, if it has no flaws. -/
def build (builder : ConfigBuilder) : Except (Failure Fault) Config :=
  builder.config.checked

end ConfigBuilder

end CheckHarness
