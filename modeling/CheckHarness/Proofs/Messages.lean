import CheckHarness.Proofs.Report
import CheckHarness.Proofs.ServiceInfo
import CheckHarness.Proofs.Task.Request

namespace CheckHarness

/-- The messages of a type mean the same however they are written. A message that is printed is read
back; so is every other text of an object that carries its members, in any order, with any blanks
and escapes, and with members beside them that no message has. A text in which a member of the
message has been written twice is not read. -/
structure ReadHoweverWritten (shape : Json.Shape) (fields : α → List Json.Field)
    (toJson : α → Json) (decode : Bytes → Except Json.ReadFault α) : Prop where
  printed : ∀ message, decode (toJson message).encode = .ok message
  written : ∀ message text, Json.WritesRecord (fields message) text → decode text = .ok message
  twice : ∀ name ∈ shape.map Prod.fst, ∀ text, Json.WritesTwice name text →
    decode text = .error .mismatched

/-- Requests, reports and descriptions of a service are read however they are written. -/
theorem messages_readHoweverWritten :
    ReadHoweverWritten TaskRequest.shape TaskRequest.fields TaskRequest.toJson TaskRequest.decode ∧
    ReadHoweverWritten Report.shape Report.fields Report.toJson Report.decode ∧
    ReadHoweverWritten ServiceInfo.shape ServiceInfo.fields ServiceInfo.toJson
      ServiceInfo.decode := by
  refine ⟨⟨?_, ?_, ?_⟩, ⟨?_, ?_, ?_⟩, ⟨?_, ?_, ?_⟩⟩
  · exact TaskRequest.decode_encode
  · exact fun _ _ => TaskRequest.decode_of_writesRecord
  · exact fun _ hname _ htwice => htwice.read_eq hname
  · exact Report.decode_encode
  · exact fun _ _ => Report.decode_of_writesRecord
  · exact fun _ hname _ htwice => htwice.read_eq hname
  · exact ServiceInfo.decode_encode
  · exact fun _ _ => ServiceInfo.decode_of_writesRecord
  · exact fun _ hname _ htwice => htwice.read_eq hname

section Rewritten

open Json

/-- Members that no report has stand around those of the report, one of which is left out. The
first letter of `result` is escaped. -/
def rewrittenMembers : List (Bytes × Node) :=
  [(Bytes.ofText "x", .array []), (Bytes.ofText "attackInfo", .null),
    (Bytes.ofText "\\u0072esult", .string (Bytes.ofText "OK")), (Bytes.ofText "x", .object [])]

def rewrittenText : Bytes :=
  Bytes.ofText
    "\x7b\"x\":[],\"attackInfo\":null,\"\\u0072esult\" : \"OK\",\"x\":\x7b\x7d\x7d"

/-- A letter of the member's name may be escaped. -/
theorem spellsChars_escapedResult :
    SpellsChars "result".toList (Bytes.ofText "\\u0072esult") := by
  have hunit : SpellsUnit 'r'.toNat (Bytes.ofText "0072") :=
    ⟨⟨_, _, _, _, rfl, by decide⟩, List.all_eq_true.mp (by decide)⟩
  exact .cons (.unit hunit) (spellsChars_bodyOf "esult")

/-- The other text is a written form of its object. -/
theorem writesSpaced_rewritten : WritesSpaced (.object rewrittenMembers) rewrittenText := by
  have hplain : ∀ text, (Bytes.ofText text).all isPlain = true → IsBody (Bytes.ofText text) :=
    fun _ hall => isBody_of_plain (List.all_eq_true.mp hall)
  have hblank : Blanks [0x20] := by simp [Blanks]
  have hfirst : WritesMember _ _ (Bytes.ofText "\"x\":[]") :=
    .mk blanks_nil (hplain "x" (by decide)) blanks_nil
      (writesSpaced (.emptyArray blanks_nil))
  have hsecond : WritesMember _ _ (Bytes.ofText "\"attackInfo\":null") :=
    .mk blanks_nil (hplain "attackInfo" (by decide)) blanks_nil
      (writesSpaced .null)
  have hthird : WritesMember _ _ (Bytes.ofText "\"\\u0072esult\" : \"OK\"") :=
    .mk blanks_nil spellsChars_escapedResult.isBody hblank
      (.mk hblank (.string (hplain "OK" (by decide))) blanks_nil)
  have hfourth : WritesMember _ _ (Bytes.ofText "\"x\":\x7b\x7d") :=
    .mk blanks_nil (hplain "x" (by decide)) blanks_nil
      (writesSpaced (.emptyObject blanks_nil))
  exact writesSpaced (.object (.comma hfirst (.comma hsecond (.comma hthird (.last hfourth)))))

/-- The other text carries the members of the report, one of them escaped and one of them unknown.
-/
theorem writesRecord_rewritten : WritesRecord (Report.ok none).fields rewrittenText := by
  have hunknown : SpellsChars "x".toList (Bytes.ofText "x") := spellsChars_bodyOf "x"
  have hverdict : IsText "OK" (.string (Bytes.ofText "OK")) := isText_node "OK"
  have hnames : Record.Names rewrittenMembers [("x", .array []), ("attackInfo", .null),
      ("result", .string (Bytes.ofText "OK")), ("x", .object [])] :=
    .cons ⟨hunknown, rfl⟩ <| .cons ⟨spellsChars_bodyOf "attackInfo", rfl⟩ <|
      .cons ⟨spellsChars_escapedResult, rfl⟩ <| .cons ⟨hunknown, rfl⟩ .nil
  refine .mk writesSpaced_rewritten hnames ⟨?_, ?_, ?_⟩
  · simpa [Report.fields, Report.ok, Field.required, Field.optional, Verdict.name] using hverdict
  · simp [Report.fields, Field.required, Field.optional]
  · simp [Report.fields, Report.ok, Field.required, Field.optional]

/-- The verdict stands there twice, once under the escaped key. -/
def repeatedText : Bytes :=
  Bytes.ofText "\x7b\"result\":\"OK\",\"\\u0072esult\":\"OK\"\x7d"

/-- A name is also repeated if it is escaped the second time. -/
theorem writesTwice_repeated : WritesTwice "result" repeatedText := by
  have hresult : SpellsChars "result".toList (Bytes.ofText "result") := spellsChars_bodyOf "result"
  have hverdict := writesSpaced (writes_chars (.str "OK"))
  have hfirst : WritesMember _ _ (Bytes.ofText "\"result\":\"OK\"") :=
    .mk blanks_nil hresult.isBody blanks_nil hverdict
  have hsecond : WritesMember _ _ (Bytes.ofText "\"\\u0072esult\":\"OK\"") :=
    .mk blanks_nil spellsChars_escapedResult.isBody blanks_nil hverdict
  have hwrites : WritesSpaced (.object ([] ++ (_, _) :: ([] ++ (_, _) :: []))) repeatedText :=
    writesSpaced (.object (.comma hfirst (.last hsecond)))
  exact .mk hwrites hresult spellsChars_escapedResult

/-- The first text is read as the report; the second one is not read. -/
theorem decode_rewritten_and_repeated :
    Report.decode rewrittenText = .ok (Report.ok none) ∧
      Report.decode repeatedText = .error .mismatched :=
  have hreports := messages_readHoweverWritten.2.1
  ⟨hreports.written (Report.ok none) rewrittenText writesRecord_rewritten,
    hreports.twice "result" (by decide) repeatedText writesTwice_repeated⟩

end Rewritten

end CheckHarness
