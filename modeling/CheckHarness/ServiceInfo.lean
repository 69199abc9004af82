import CheckHarness.Fault
import CheckHarness.Json.Decode
import CheckHarness.Json.Printer

namespace CheckHarness

/-- What a checker tells about itself: the name of the service it checks and how many variants of
each kind of task it knows. -/
structure ServiceInfo where
  serviceName : String
  flagVariants : UInt32
  noiseVariants : UInt32
  havocVariants : UInt32
  deriving DecidableEq, Repr

namespace ServiceInfo

/-- A name is given and every kind of task has a variant; of several faults the first is named. -/
def validate (info : ServiceInfo) : Except Fault Unit :=
  Fault.rejectFirst [
    (info.serviceName == "", .validation "serviceName" "must not be empty"),
    (info.flagVariants == 0, .validation "flagVariants" "must be at least 1"),
    (info.noiseVariants == 0, .validation "noiseVariants" "must be at least 1"),
    (info.havocVariants == 0, .validation "havocVariants" "must be at least 1")]

/-- The given description, if it holds up to `validate`. -/
def checked (info : ServiceInfo) : Except Fault ServiceInfo :=
  info.validate.map fun _ => info

def toJson (info : ServiceInfo) : Json :=
  .obj [("serviceName", .str info.serviceName), ("flagVariants", .nat info.flagVariants.toNat),
    ("noiseVariants", .nat info.noiseVariants.toNat), ("havocVariants", .nat info.havocVariants.toNat)]

def shape : Json.Shape :=
  [("serviceName", .required), ("flagVariants", .required), ("noiseVariants", .required),
    ("havocVariants", .required)]

def ofRecord? (record : Json.Record) : Option ServiceInfo := do
  return {
    serviceName := ← record.required "serviceName" Json.Node.text?
    flagVariants := ← record.required "flagVariants" Json.Node.word32?
    noiseVariants := ← record.required "noiseVariants" Json.Node.word32?
    havocVariants := ← record.required "havocVariants" Json.Node.word32? }

def decode (bytes : Bytes) : Except Json.ReadFault ServiceInfo :=
  Json.read shape ofRecord? bytes

end ServiceInfo

end CheckHarness
