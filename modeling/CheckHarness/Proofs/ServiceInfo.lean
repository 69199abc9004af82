import CheckHarness.ServiceInfo
import CheckHarness.Proofs.Fault
import CheckHarness.Proofs.Json.Record

namespace CheckHarness.ServiceInfo

open Json (IsText IsNatural)

variable {info : ServiceInfo}

/-- The description of a service that has a name and at least one variant of every kind. -/
structure Complete (info : ServiceInfo) : Prop where
  named : info.serviceName ≠ ""
  flags : 1 ≤ info.flagVariants.toNat
  noises : 1 ≤ info.noiseVariants.toNat
  havocs : 1 ≤ info.havocVariants.toNat

/-- What makes a description complete, in the order in which it is looked at. -/
def conditions (info : ServiceInfo) : List Condition :=
  [⟨"serviceName", info.serviceName ≠ ""⟩, ⟨"flagVariants", 1 ≤ info.flagVariants.toNat⟩,
    ⟨"noiseVariants", 1 ≤ info.noiseVariants.toNat⟩,
    ⟨"havocVariants", 1 ≤ info.havocVariants.toNat⟩]

/-- A description meets the conditions just if it is complete. -/
theorem forall_conditions_iff :
    (∀ condition ∈ info.conditions, condition.met) ↔ info.Complete := by
  simp only [conditions, List.forall_mem_cons, List.not_mem_nil, false_implies, implies_true,
    and_true]
  exact ⟨fun ⟨hname, hflag, hnoise, hhavoc⟩ => ⟨hname, hflag, hnoise, hhavoc⟩,
    fun ⟨hname, hflag, hnoise, hhavoc⟩ => ⟨hname, hflag, hnoise, hhavoc⟩⟩

theorem beq_zero_eq_false_iff {count : UInt32} : (count == 0) = false ↔ 1 ≤ count.toNat := by
  rw [beq_eq_false_iff_ne, ne_eq, ← UInt32.toNat_inj, UInt32.toNat_zero]
  omega

/-- The check decides the conditions in their order. -/
theorem decide_validate (info : ServiceInfo) :
    Condition.Decide info.conditions info.validate := by
  apply Condition.Decide.rejectFirst
  refine .cons ⟨beq_eq_false_iff_ne, _, rfl⟩ (.cons ⟨?_, _, rfl⟩ (.cons ⟨?_, _, rfl⟩
    (.cons ⟨?_, _, rfl⟩ .nil)))
  all_goals exact beq_zero_eq_false_iff

/-- A description passes the check just if it is complete. -/
theorem validate_eq_ok_iff : info.validate = .ok () ↔ info.Complete := by
  rw [← forall_conditions_iff]
  refine ⟨info.decide_validate.all_met, fun hall => ?_⟩
  obtain ⟨⟨⟩, hvalid⟩ := info.decide_validate.passes hall
  exact hvalid

/-- The members of an object that carries a description. -/
def fields (info : ServiceInfo) : List Json.Field :=
  let count name (value : UInt32) := .required name (fun n => IsNatural n.toNat) value
  [.required "serviceName" IsText info.serviceName, count "flagVariants" info.flagVariants,
    count "noiseVariants" info.noiseVariants, count "havocVariants" info.havocVariants]

theorem map_name_fields (info : ServiceInfo) :
    info.fields.map Json.Field.name = shape.map Prod.fst :=
  rfl

/-- A description is read from a record that carries its members. -/
theorem ofRecord?_known {record : Json.Record} (hcarries : record.Carries info.fields) :
    ofRecord? (Json.Record.known shape record) = some info := by
  have hname := hcarries.required info.map_name_fields Json.reads_text List.mem_cons_self
  have hcount : ∀ name (value : UInt32),
      .required name (fun n => IsNatural n.toNat) value ∈ info.fields →
        (Json.Record.known shape record).required name Json.Node.word32? = some value :=
    fun _ _ => hcarries.required info.map_name_fields Json.reads_word32
  rw [ofRecord?, hname, hcount "flagVariants" info.flagVariants (by simp [fields]),
    hcount "noiseVariants" info.noiseVariants (by simp [fields]),
    hcount "havocVariants" info.havocVariants (by simp [fields])]
  rfl

/-- A description is read however it is written. -/
theorem decode_of_writesRecord {text : Bytes} (hwrites : Json.WritesRecord info.fields text) :
    decode text = .ok info :=
  hwrites.read_eq info.map_name_fields fun _ => ofRecord?_known

/-- The printed text of a description carries its members. -/
theorem writesRecord_encode (info : ServiceInfo) :
    Json.WritesRecord info.fields info.toJson.encode := by
  refine Json.Prints.writesRecord_encode ?_ info.map_name_fields (by decide)
  exact .member (Json.isText_node _) <| .member (Json.isNatural_node _) <|
    .member (Json.isNatural_node _) <| .member (Json.isNatural_node _) <| .nil

/-- A printed description is read back. -/
theorem decode_encode (info : ServiceInfo) : decode info.toJson.encode = .ok info :=
  decode_of_writesRecord info.writesRecord_encode

end CheckHarness.ServiceInfo
