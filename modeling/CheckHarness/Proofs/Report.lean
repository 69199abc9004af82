import CheckHarness.Report
import CheckHarness.Proofs.Json.Record

namespace CheckHarness

theorem Verdict.ofName?_name (verdict : Verdict) : ofName? verdict.name = some verdict := by
  cases verdict <;> decide

namespace Report

open Json (IsText)

/-- The members of an object that carries a report. -/
def fields (report : Report) : List Json.Field :=
  [.required "result" (fun verdict : Verdict => IsText verdict.name) report.verdict,
    .optional "message" IsText report.message, .optional "attackInfo" IsText report.attackInfo]

theorem map_name_fields (report : Report) :
    report.fields.map Json.Field.name = shape.map Prod.fst :=
  rfl

variable {report : Report}

/-- A report is read from a record that carries its members. -/
theorem ofRecord?_known {record : Json.Record} (hcarries : record.Carries report.fields) :
    ofRecord? (Json.Record.known shape record) = some report := by
  have hverdict := hcarries.required report.map_name_fields
    (Json.reads_choice Verdict.ofName?_name) List.mem_cons_self
  have htext : ∀ name value, .optional name IsText value ∈ report.fields →
      (Json.Record.known shape record).optional name Json.Node.text? = some value :=
    fun _ _ => hcarries.optional report.map_name_fields Json.reads_text
  rw [ofRecord?, hverdict, htext "message" report.message (by simp [fields]),
    htext "attackInfo" report.attackInfo (by simp [fields])]
  rfl

/-- A report is read however it is written. -/
theorem decode_of_writesRecord {text : Bytes} (hwrites : Json.WritesRecord report.fields text) :
    decode text = .ok report :=
  hwrites.read_eq report.map_name_fields fun _ => ofRecord?_known

/-- The printed text of a report carries its members. -/
theorem writesRecord_encode (report : Report) :
    Json.WritesRecord report.fields report.toJson.encode := by
  have htext : ∀ name value,
      (Json.Field.optional name IsText value).carriedBy (Json.ofOption .str value).node :=
    fun _ => Json.Field.carriedBy_optional Json.isText_node
  refine Json.Prints.writesRecord_encode ?_ report.map_name_fields (by decide)
  exact .member (Json.isText_node _) <| .member (htext _ _) <| .member (htext _ _) <| .nil

/-- A printed report is read back. -/
theorem decode_encode (report : Report) : decode report.toJson.encode = .ok report :=
  decode_of_writesRecord report.writesRecord_encode

end Report

end CheckHarness
