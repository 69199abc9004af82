import CheckHarness.Json.Decode
import CheckHarness.Json.Printer

namespace CheckHarness

/-- How a task ended. -/
inductive Verdict where
  | ok
  | mumble
  | offline
  | internalError
  deriving DecidableEq, Repr

namespace Verdict

def all : List Verdict :=
  [.ok, .mumble, .offline, .internalError]

def name : Verdict → String
  | .ok => "OK"
  | .mumble => "MUMBLE"
  | .offline => "OFFLINE"
  | .internalError => "INTERNAL_ERROR"

def ofName? (name : String) : Option Verdict :=
  all.find? fun verdict => verdict.name == name

end Verdict

/-- The one answer that a task gets. It carries a message only when the service is at fault, and
attack information only on success. -/
structure Report where
  verdict : Verdict
  message : Option String
  attackInfo : Option String
  deriving DecidableEq, Repr

namespace Report

def ok (attackInfo : Option String) : Report :=
  ⟨.ok, none, attackInfo⟩

def mumble (message : String) : Report :=
  ⟨.mumble, some message, none⟩

def offline (message : Option String) : Report :=
  ⟨.offline, message, none⟩

def internalError : Report :=
  ⟨.internalError, none, none⟩

def toJson (report : Report) : Json :=
  .obj [("result", .str report.verdict.name), ("message", Json.ofOption .str report.message),
    ("attackInfo", Json.ofOption .str report.attackInfo)]

/-- The members of a report. The texts may be left out, at the end of a list too. -/
def shape : Json.Shape :=
  [("result", .required), ("message", .omissible), ("attackInfo", .omissible)]

def ofRecord? (record : Json.Record) : Option Report := do
  return {
    verdict := ← record.required "result" (Json.Node.choice? Verdict.ofName?)
    message := ← record.optional "message" Json.Node.text?
    attackInfo := ← record.optional "attackInfo" Json.Node.text? }

/-- Reads a report from the bytes of a JSON text. -/
def decode (bytes : Bytes) : Except Json.ReadFault Report :=
  Json.read shape ofRecord? bytes

end Report

end CheckHarness
