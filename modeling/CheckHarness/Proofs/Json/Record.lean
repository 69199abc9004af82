import CheckHarness.Proofs.Json.Printer
import CheckHarness.Proofs.Lookup
import Mathlib.Data.List.Forall2
import Mathlib.Data.List.Nodup

namespace CheckHarness.Json

/-- The values that are a text. -/
inductive IsText (text : String) : Node → Prop where
  | mk {body} (hbody : SpellsChars text.toList body) : IsText text (.string body)

/-- The value that is a number. -/
inductive IsNatural (n : Nat) : Node → Prop where
  | mk : IsNatural n (.number (Bytes.ofChars (Numeral.digits n)))

/-- Values written in these ways are read. -/
def Reads (writes : α → Node → Prop) (read? : Node → Option α) : Prop :=
  ∀ value node, writes value node → node ≠ .null ∧ read? node = some value

/-- A text is read in whichever way it was written. -/
theorem reads_text : Reads IsText Node.text? := by
  rintro text _ ⟨hbody⟩
  exact ⟨nofun, hbody.unescape?_eq⟩

/-- A choice is read by its name. -/
theorem reads_choice {name : α → String} {ofName? : String → Option α}
    (hname : ∀ value, ofName? (name value) = some value) :
    Reads (fun value => IsText (name value)) (Node.choice? ofName?) := by
  rintro value _ ⟨hbody⟩
  refine ⟨nofun, ?_⟩
  rw [Node.choice?, hbody.unescape?_eq, Option.bind_some, hname]

/-- A number below the limit is read. -/
theorem natural?_of_isNatural {limit n : Nat} {node : Node} (hnode : IsNatural n node)
    (hn : n < limit) : node.natural? limit = some n := by
  cases hnode
  have hlexeme : (Bytes.ofChars (Numeral.digits n)).map (fun byte => Char.ofNat byte.toNat) =
      Numeral.digits n := by
    rw [ofChars_digits fun c => Numeral.isDigit_of_mem_digits, List.map_map]
    refine (List.map_congr_left fun c hc => ?_).trans (List.map_id _)
    have hbounds := Numeral.toNat_of_isDigit (Numeral.isDigit_of_mem_digits hc)
    rw [Function.comp_apply, Bytes.toNat_ofNat_of_ascii (by omega), Char.ofNat_toNat, id]
  rw [Node.natural?, hlexeme, Numeral.extend_digits hn]
  rfl

theorem ne_null_of_isNatural {n : Nat} {node : Node} (hnode : IsNatural n node) : node ≠ .null := by
  cases hnode
  nofun

/-- A number of sixteen bits is read. -/
theorem reads_word16 : Reads (fun n : UInt16 => IsNatural n.toNat) Node.word16? := by
  intro n node hnode
  refine ⟨ne_null_of_isNatural hnode, ?_⟩
  rw [Node.word16?, natural?_of_isNatural hnode n.toNat_lt]
  simp

/-- A number of thirty-two bits is read. -/
theorem reads_word32 : Reads (fun n : UInt32 => IsNatural n.toNat) Node.word32? := by
  intro n node hnode
  refine ⟨ne_null_of_isNatural hnode, ?_⟩
  rw [Node.word32?, natural?_of_isNatural hnode n.toNat_lt]
  simp

/-- A number of sixty-four bits is read. -/
theorem reads_word64 : Reads (fun n : UInt64 => IsNatural n.toNat) Node.word64? := by
  intro n node hnode
  refine ⟨ne_null_of_isNatural hnode, ?_⟩
  rw [Node.word64?, natural?_of_isNatural hnode n.toNat_lt]
  simp

/-- A member of a record: the values that carry it, and whether it may be left out. -/
structure Field where
  name : String
  carriedBy : Node → Prop
  omissible : Bool

namespace Field

/-- A member that is always there. -/
def required (name : String) (writes : α → Node → Prop) (value : α) : Field :=
  ⟨name, writes value, false⟩

/-- A member whose value may be absent: then it is null or not there at all. -/
def optional (name : String) (writes : α → Node → Prop) (value : Option α) : Field :=
  ⟨name, fun node => value.elim (node = .null) (writes · node), value.isNone⟩

/-- An optional value is carried as it is printed, and as null where there is none. -/
theorem carriedBy_optional {name : String} {writes : α → Node → Prop} {toJson : α → Json}
    (hwrites : ∀ value, writes value (toJson value).node) (value : Option α) :
    (optional name writes value).carriedBy (ofOption toJson value).node := by
  cases value with
  | none => rfl
  | some value => exact hwrites value

end Field

namespace Record

/-- The members of an object, with the texts that their keys stand for. -/
def Names (members : List (Bytes × Node)) (record : Record) : Prop :=
  List.Forall₂ (fun member entry => SpellsChars entry.1.toList member.1 ∧ entry.2 = member.2)
    members record

/-- The members hold the values of the fields, and no field twice; there may be any others beside
them, in any order. -/
structure Carries (fields : List Field) (record : Record) : Prop where
  carried : ∀ field ∈ fields, ∀ node, (field.name, node) ∈ record → field.carriedBy node
  once : ∀ field ∈ fields, (record.map Prod.fst).count field.name ≤ 1
  complete : ∀ field ∈ fields, field.omissible = true ∨ field.name ∈ record.map Prod.fst

/-- The members that a shape has. -/
def known (shape : Shape) (record : Record) : Record :=
  record.filter fun entry => (shape.map Prod.fst).contains entry.1

variable {shape : Shape} {fields : List Field} {record : Record} {name : String}
  {members : List (Bytes × Node)}

theorem mem_map_fst_known {entries : Record} (hmem : name ∈ (known shape entries).map Prod.fst) :
    name ∈ entries.map Prod.fst := by
  obtain ⟨entry, hentry, rfl⟩ := List.mem_map.mp hmem
  exact List.mem_map_of_mem (List.mem_of_mem_filter hentry)

/-- A member in front counts if the record knows its name. -/
theorem known_cons (entry : String × Node) (entries : Record) :
    known shape (entry :: entries) =
      if (shape.map Prod.fst).contains entry.1 then entry :: known shape entries
      else known shape entries :=
  List.filter_cons

/-- The known members of an object are found, if none of them occurs twice. -/
theorem ofMembers?_eq_known (hnames : Names members record)
    (honce : ∀ name ∈ shape.map Prod.fst, (record.map Prod.fst).count name ≤ 1) :
    ofMembers? shape members = some (known shape record) := by
  induction hnames with
  | nil => rfl
  | @cons member entry members record hmember hrest ih =>
    obtain ⟨body, value⟩ := member
    obtain ⟨name, _⟩ := entry
    obtain ⟨hbody, rfl⟩ := hmember
    have hmore : ofMembers? shape members = some (known shape record) := by
      refine ih fun other hother => Nat.le_trans ?_ (honce other hother)
      exact List.count_le_count_cons
    rw [known_cons, ofMembers?, hbody.unescape?_eq, hmore]
    simp only [Option.bind_eq_bind, Option.bind_some]
    split
    · next hknown =>
      have hcount := honce name (by simpa using hknown)
      rw [List.map_cons, List.count_cons_self] at hcount
      have habsent : name ∉ record.map Prod.fst := List.count_eq_zero.mp (by omega)
      have hnew : ((known shape record).map Prod.fst).contains name = false := by
        rw [← Bool.not_eq_true, List.contains_iff_mem]
        exact fun hmem => habsent (mem_map_fst_known hmem)
      rw [hnew]
      rfl
    · rfl

/-- A name that the shape has is looked up among the known members as among all. -/
theorem lookup_known (hknown : name ∈ shape.map Prod.fst) :
    (known shape record).lookup name = record.lookup name := by
  induction record with
  | nil => rfl
  | cons entry record ih =>
    obtain ⟨other, node⟩ := entry
    rw [known_cons]
    by_cases hname : name = other
    · subst hname
      rw [if_pos (List.contains_iff_mem.mpr hknown), List.lookup_cons_self, List.lookup_cons_self]
    · rw [lookup_cons_of_ne hname, ← ih]
      split
      · exact lookup_cons_of_ne hname
      · rfl

namespace Carries

variable {writes : α → Node → Prop} {read? : Node → Option α}

/-- A field that may not be left out is found, with a node that carries its value. -/
theorem exists_lookup {field : Field} (hcarries : Carries fields record) (hfield : field ∈ fields)
    (hneeded : field.omissible = false) :
    ∃ node, record.lookup field.name = some node ∧ field.carriedBy node := by
  have hpresent := (hcarries.complete field hfield).resolve_left (by simp [hneeded])
  cases hlookup : record.lookup field.name with
  | none => exact absurd hpresent (lookup_eq_none_iff_notMem.mp hlookup)
  | some node => exact ⟨node, rfl, hcarries.carried field hfield node (mem_of_lookup hlookup)⟩

/-- A required member is read. -/
theorem required {value : α} (hcarries : Carries fields record)
    (hshape : fields.map Field.name = shape.map Prod.fst) (hreads : Reads writes read?)
    (hfield : Field.required name writes value ∈ fields) :
    (known shape record).required name read? = some value := by
  have hknown : name ∈ shape.map Prod.fst := hshape ▸ List.mem_map_of_mem hfield
  obtain ⟨node, hlookup, hcarried⟩ := hcarries.exists_lookup hfield rfl
  change record.lookup name = some node at hlookup
  rw [Record.required, lookup_known hknown, hlookup]
  exact (hreads value node hcarried).2

/-- What is not null is read as a value. -/
theorem orNull?_eq {node : Node} (hnode : node ≠ .null) :
    node.orNull? read? = (read? node).map some := by
  cases node with
  | null => exact absurd rfl hnode
  | _ => rfl

/-- A member that may be absent is read, whether it is null or not there at all. -/
theorem optional {value : Option α} (hcarries : Carries fields record)
    (hshape : fields.map Field.name = shape.map Prod.fst) (hreads : Reads writes read?)
    (hfield : Field.optional name writes value ∈ fields) :
    (known shape record).optional name read? = some value := by
  have hknown : name ∈ shape.map Prod.fst := hshape ▸ List.mem_map_of_mem hfield
  rw [Record.optional, lookup_known hknown]
  cases value with
  | none =>
    cases hlookup : record.lookup name with
    | none => rfl
    | some node =>
      obtain rfl : node = .null := hcarries.carried _ hfield node (mem_of_lookup hlookup)
      rfl
  | some value =>
    obtain ⟨node, hlookup, hcarried⟩ := hcarries.exists_lookup hfield rfl
    change record.lookup name = some node at hlookup
    obtain ⟨hnull, hread⟩ := hreads value node hcarried
    rw [hlookup]
    exact (orNull?_eq hnull).trans (congrArg (Option.map some) hread)

end Carries

/-- Members that cannot be read stay so behind others. -/
theorem ofMembers?_append_eq_none {before : List (Bytes × Node)}
    (hnone : ofMembers? shape members = none) : ofMembers? shape (before ++ members) = none := by
  induction before with
  | nil => exact hnone
  | cons member before ih =>
    rw [List.cons_append, ofMembers?, ih]
    simp

/-- A known member of an object that is read is in the record. -/
theorem mem_of_ofMembers? {key : Bytes} {node : Node} (hkey : SpellsChars name.toList key)
    (hknown : name ∈ shape.map Prod.fst) (hmem : (key, node) ∈ members)
    (hread : ofMembers? shape members = some record) : name ∈ record.map Prod.fst := by
  induction members generalizing record with
  | nil => cases hmem
  | cons member members ih =>
    obtain ⟨body, value⟩ := member
    rw [ofMembers?] at hread
    simp only [Option.bind_eq_bind, Option.bind_eq_some_iff] at hread
    obtain ⟨found, hfound, later, hlater, hread⟩ := hread
    cases hmem with
    | head =>
      obtain rfl : name = found := Option.some.inj (hkey.unescape?_eq.symm.trans hfound)
      rw [if_pos (List.contains_iff_mem.mpr hknown)] at hread
      split at hread
      · cases hread
      · cases hread
        simp
    | tail _ hmem =>
      have hin := ih hmem hlater
      split at hread
      · split at hread
        · cases hread
        · cases hread
          exact List.mem_cons_of_mem _ hin
      · cases hread
        exact hin

/-- A known member that stands there twice is not read. -/
theorem ofMembers?_eq_none {key other : Bytes} {first second : Node}
    {before between after : List (Bytes × Node)} (hknown : name ∈ shape.map Prod.fst)
    (hkey : SpellsChars name.toList key) (hother : SpellsChars name.toList other) :
    ofMembers? shape (before ++ (key, first) :: (between ++ (other, second) :: after)) = none := by
  refine ofMembers?_append_eq_none ?_
  rw [ofMembers?, hkey.unescape?_eq, Option.bind_eq_bind, Option.bind_some]
  cases hread : ofMembers? shape (between ++ (other, second) :: after) with
  | none => rfl
  | some record =>
    have hmem : (other, second) ∈ between ++ (other, second) :: after := by simp
    have hin := mem_of_ofMembers? hother hknown hmem hread
    rw [Option.bind_eq_bind, Option.bind_some, if_pos (List.contains_iff_mem.mpr hknown),
      if_pos (List.contains_iff_mem.mpr hin)]

end Record

/-- The texts of an object that carries a record. -/
inductive WritesRecord (fields : List Field) : Bytes → Prop where
  | mk {members record text} (hwrites : WritesSpaced (.object members) text)
    (hnames : Record.Names members record) (hcarries : Record.Carries fields record) :
    WritesRecord fields text

/-- The texts of an object in which two members have the name. -/
inductive WritesTwice (name : String) : Bytes → Prop where
  | mk {before key first between other second after text}
    (hwrites : WritesSpaced (.object (before ++ (key, first) :: (between ++ (other, second) :: after)))
      text)
    (hkey : SpellsChars name.toList key) (hother : SpellsChars name.toList other) :
    WritesTwice name text

section Read

variable {shape : Shape} {fields : List Field} {ofRecord? : Record → Option α} {value : α}
  {name : String} {text : Bytes}

/-- A record is read however it is written. -/
theorem WritesRecord.read_eq (hwrites : WritesRecord fields text)
    (hshape : fields.map Field.name = shape.map Prod.fst)
    (hvalue : ∀ record, Record.Carries fields record →
      ofRecord? (Record.known shape record) = some value) :
    read shape ofRecord? text = .ok value := by
  obtain @⟨members, record, text, hwrites, hnames, hcarries⟩ := hwrites
  have honce : ∀ name ∈ shape.map Prod.fst, (record.map Prod.fst).count name ≤ 1 := by
    rw [← hshape]
    exact List.forall_mem_map.mpr hcarries.once
  rw [read, hwrites.parse?_eq]
  simp only [Record.ofNode?, Record.ofMembers?_eq_known hnames honce, Option.bind_some,
    hvalue _ hcarries]

/-- A record in which a known member occurs twice is not read. -/
theorem WritesTwice.read_eq (hwrites : WritesTwice name text) (hknown : name ∈ shape.map Prod.fst) :
    read shape ofRecord? text = .error .mismatched := by
  obtain ⟨hwrites, hkey, hother⟩ := hwrites
  rw [read, hwrites.parse?_eq]
  simp only [Record.ofNode?, Record.ofMembers?_eq_none hknown hkey hother, Option.bind_none]

end Read

theorem isText_node (text : String) : IsText text (Json.str text).node :=
  .mk (spellsChars_bodyOf text)

theorem isNatural_node (n : Nat) : IsNatural n (Json.nat n).node :=
  .mk

/-- An object is printed with a member for every field but some that may be left out. -/
inductive Prints : List Field → List (String × Json) → Prop where
  | nil : Prints [] []
  | member {field fields json members} (hcarried : Field.carriedBy field (node json))
    (hrest : Prints fields members) : Prints (field :: fields) ((field.name, json) :: members)
  | omitted {field fields members} (homissible : field.omissible = true)
    (hrest : Prints fields members) : Prints (field :: fields) members

/-- The members of an object as a record. -/
def Record.ofJson (members : List (String × Json)) : Record :=
  members.map fun member => (member.1, member.2.node)

theorem Record.map_fst_ofJson (members : List (String × Json)) :
    (ofJson members).map Prod.fst = members.map Prod.fst := by
  simp [ofJson, Function.comp_def]

theorem Record.names_ofJson : ∀ members : List (String × Json),
    Names (memberNodes members) (ofJson members)
  | [] => .nil
  | (key, _) :: members => .cons ⟨spellsChars_bodyOf key, rfl⟩ (names_ofJson members)

namespace Prints

variable {fields : List Field} {members : List (String × Json)}

/-- The printed members are some of the fields, in their order. -/
theorem sublist_names (hprints : Prints fields members) :
    (members.map Prod.fst).Sublist (fields.map Field.name) := by
  induction hprints with
  | nil => exact .slnil
  | member _ _ ih => exact ih.cons_cons _
  | omitted _ _ ih => exact ih.cons _

/-- Every member that is printed carries a field. -/
theorem exists_field (hprints : Prints fields members) :
    ∀ member ∈ members, ∃ field ∈ fields,
      field.name = member.1 ∧ field.carriedBy member.2.node := by
  induction hprints with
  | nil => exact nofun
  | member hcarried _ ih =>
    refine List.forall_mem_cons.mpr ⟨⟨_, List.mem_cons_self, rfl, hcarried⟩, fun member hmem => ?_⟩
    obtain ⟨field, hfield, hmember⟩ := ih member hmem
    exact ⟨field, List.mem_cons_of_mem _ hfield, hmember⟩
  | omitted _ _ ih =>
    intro member hmem
    obtain ⟨field, hfield, hmember⟩ := ih member hmem
    exact ⟨field, List.mem_cons_of_mem _ hfield, hmember⟩

/-- Every member that is printed carries its field. -/
theorem carried (hprints : Prints fields members) (hdistinct : (fields.map Field.name).Nodup) :
    ∀ field ∈ fields, ∀ node, (field.name, node) ∈ Record.ofJson members →
      field.carriedBy node := by
  intro field hfield node hnode
  obtain ⟨member, hmember, heq⟩ := List.mem_map.mp hnode
  obtain ⟨hname, rfl⟩ := Prod.mk.inj heq
  obtain ⟨other, hother, hotherName, hcarried⟩ := hprints.exists_field member hmember
  have hsame : other = field :=
    List.inj_on_of_nodup_map hdistinct hother hfield (hotherName.trans hname)
  rwa [← hsame]

/-- A field that is not printed may be left out. -/
theorem complete (hprints : Prints fields members) :
    ∀ field ∈ fields, field.omissible = true ∨ field.name ∈ members.map Prod.fst := by
  induction hprints with
  | nil => exact nofun
  | member _ _ ih =>
    refine List.forall_mem_cons.mpr ⟨.inr List.mem_cons_self, fun field hfield => ?_⟩
    exact (ih field hfield).imp_right (List.mem_cons_of_mem _)
  | omitted homissible _ ih => exact List.forall_mem_cons.mpr ⟨.inl homissible, ih⟩

/-- A printed object is one of the texts of the record. -/
theorem writesRecord_encode {shape : Shape} (hprints : Prints fields members)
    (hshape : fields.map Field.name = shape.map Prod.fst)
    (hshapeDistinct : (shape.map Prod.fst).Nodup) : WritesRecord fields (obj members).encode := by
  have hdistinct : (fields.map Field.name).Nodup := hshape ▸ hshapeDistinct
  refine .mk (writes_encode (obj members)) (Record.names_ofJson members) ⟨?_, ?_, ?_⟩
  · exact hprints.carried hdistinct
  · intro field _
    rw [Record.map_fst_ofJson]
    exact List.nodup_iff_count_le_one.mp (hprints.sublist_names.nodup hdistinct) field.name
  · rw [Record.map_fst_ofJson]
    exact hprints.complete

end Prints

end CheckHarness.Json
