import CheckHarness.Proofs.Lookup
import CheckHarness.Toml.Document
import Mathlib.Data.List.Nodup
import Mathlib.Tactic.SplitIfs

namespace CheckHarness.Toml

/-- No table in a value has a key twice. -/
inductive Value.Distinct : Value → Prop where
  | string (text : String) : Distinct (.string text)
  | integer (value : Int) : Distinct (.integer value)
  | float (lexeme : String) : Distinct (.float lexeme)
  | boolean (value : Bool) : Distinct (.boolean value)
  | datetime (lexeme : String) : Distinct (.datetime lexeme)
  | array {elements} (helements : ∀ element ∈ elements, Distinct element) :
    Distinct (.array elements)
  | table {entries} (hkeys : (entries.map Prod.fst).Nodup)
    (hentries : ∀ entry ∈ entries, Distinct entry.2) : Distinct (.table entries)

/-- The same of an entry of a table under construction. -/
inductive Entry.Distinct : Entry → Prop where
  | value {value} (hvalue : value.Distinct) : Distinct (.value value)
  | table {origin entries} (hkeys : (entries.map Prod.fst).Nodup)
    (hentries : ∀ entry ∈ entries, Distinct entry.2) : Distinct (.table origin entries)
  | tables {tables} (hkeys : ∀ table ∈ tables, (table.map Prod.fst).Nodup)
    (hentries : ∀ table ∈ tables, ∀ entry ∈ table, Distinct entry.2) : Distinct (.tables tables)

namespace Entries

structure Distinct (entries : Entries) : Prop where
  keys : (entries.map Prod.fst).Nodup
  entries : ∀ entry ∈ entries, entry.2.Distinct

/-- A change that makes no key of a table occur twice. -/
def Preserves (change : Entries → Option Entries) : Prop :=
  ∀ entries result, Distinct entries → change entries = some result → Distinct result

variable {entries : Entries} {name : String} {entry : Entry} {value : Value} {path : List String}

theorem distinct_nil : Distinct [] :=
  ⟨.nil, nofun⟩

theorem distinct_cons_iff :
    Distinct ((name, entry) :: entries) ↔
      name ∉ entries.map Prod.fst ∧ entry.Distinct ∧ Distinct entries := by
  constructor
  · rintro ⟨hkeys, hall⟩
    rw [List.map_cons, List.nodup_cons] at hkeys
    rw [List.forall_mem_cons] at hall
    exact ⟨hkeys.1, hall.1, hkeys.2, hall.2⟩
  · rintro ⟨hname, hentry, hkeys, hall⟩
    exact ⟨List.nodup_cons.mpr ⟨hname, hkeys⟩, List.forall_mem_cons.mpr ⟨hentry, hall⟩⟩

theorem distinct_table_iff {origin : Origin} {table : Entries} :
    (Entry.table origin table).Distinct ↔ Distinct table :=
  ⟨fun | .table hkeys hentries => ⟨hkeys, hentries⟩, fun ⟨hkeys, hentries⟩ => .table hkeys hentries⟩

theorem distinct_tables_iff {tables : List Entries} :
    (Entry.tables tables).Distinct ↔ ∀ table ∈ tables, Distinct table := by
  constructor
  · rintro (_ | _ | ⟨hkeys, hentries⟩) table htable
    exact ⟨hkeys table htable, hentries table htable⟩
  · intro htables
    exact .tables (fun table htable => (htables table htable).keys)
      (fun table htable => (htables table htable).entries)

/-- Setting an entry adds its key, if it is new, and no other. -/
theorem mem_map_fst_set {other : String} :
    other ∈ (set entries name entry).map Prod.fst ↔ other = name ∨ other ∈ entries.map Prod.fst := by
  induction entries with
  | nil => simp [set]
  | cons first entries ih =>
    obtain ⟨key, old⟩ := first
    rw [set]
    split
    · next hkey => simp [hkey]
    · rw [List.map_cons, List.mem_cons, ih, List.map_cons, List.mem_cons, or_left_comm]

theorem Distinct.set (hentries : entries.Distinct) (hentry : entry.Distinct) :
    (entries.set name entry).Distinct := by
  induction entries with
  | nil => exact distinct_cons_iff.mpr ⟨List.not_mem_nil, hentry, distinct_nil⟩
  | cons first entries ih =>
    obtain ⟨key, old⟩ := first
    obtain ⟨hkey, hold, hrest⟩ := distinct_cons_iff.mp hentries
    rw [Entries.set]
    split
    · next hname => exact distinct_cons_iff.mpr ⟨hname ▸ hkey, hentry, hrest⟩
    · next hname =>
      refine distinct_cons_iff.mpr ⟨fun hmem => ?_, hold, ih hrest⟩
      exact (mem_map_fst_set.mp hmem).elim hname hkey

theorem Distinct.set_table {table : Entries} (hentries : entries.Distinct) (origin : Origin)
    (htable : table.Distinct) : (entries.set name (.table origin table)).Distinct :=
  hentries.set (distinct_table_iff.mpr htable)

theorem Distinct.remove (hentries : entries.Distinct) (name : String) :
    (entries.remove name).Distinct :=
  ⟨(List.filter_sublist.map Prod.fst).nodup hentries.keys,
    fun entry hentry => hentries.entries entry (List.mem_of_mem_filter hentry)⟩

/-- What stands under a key has no key twice either. -/
theorem Distinct.of_lookup (hentries : entries.Distinct) (hlookup : entries.lookup name = some entry) :
    entry.Distinct :=
  hentries.entries (name, entry) (mem_of_lookup hlookup)

/-- A value under a new key can be put at the end. -/
theorem Distinct.append_value (hentries : entries.Distinct) (hnew : entries.lookup name = none)
    (hvalue : value.Distinct) : Distinct (entries ++ [(name, .value value)]) := by
  have hname := lookup_eq_none_iff_notMem.mp hnew
  constructor
  · rw [List.map_append, List.nodup_append]
    refine ⟨hentries.keys, List.nodup_singleton name, fun other hother last hlast heq => ?_⟩
    rw [heq, List.mem_singleton.mp hlast] at hother
    exact hname hother
  · rw [List.forall_mem_append]
    exact ⟨hentries.entries, List.forall_mem_singleton.mpr (.value hvalue)⟩

/-- A change of the last table of an array keeps the keys of all of them apart. -/
theorem Preserves.changeLast {change : Entries → Option Entries} {tables result : List Entries}
    (hchange : Preserves change) (htables : ∀ table ∈ tables, Distinct table)
    (hresult : changeLast change tables = some result) : ∀ table ∈ result, Distinct table := by
  rw [Entries.changeLast] at hresult
  split at hresult
  · cases hresult
  · next last hlast =>
    obtain ⟨table, htable, rfl⟩ := Option.map_eq_some_iff.mp hresult
    rw [List.forall_mem_append]
    refine ⟨fun other hother => htables other (List.dropLast_subset tables hother), ?_⟩
    exact List.forall_mem_singleton.mpr
      (hchange last table (htables last (List.mem_of_getLast? hlast)) htable)

/-- A change deep in the tables of a document changes the tables on the way in the same manner. -/
theorem Preserves.changeAt {change : String → Entries → Option Entries}
    (hchange : ∀ name, Preserves (change name)) (path : List String) :
    Preserves (changeAt change path) := by
  induction path with
  | nil => exact fun _ _ _ hresult => nomatch hresult
  | cons name path ih =>
    cases path with
    | nil => exact hchange name
    | cons next path =>
      intro entries result hentries hresult
      rw [Entries.changeAt] at hresult
      · split at hresult
        · obtain ⟨table, htable, rfl⟩ := Option.map_eq_some_iff.mp hresult
          exact hentries.set_table .implied (ih [] table distinct_nil htable)
        · next origin old hlookup =>
          obtain ⟨table, htable, rfl⟩ := Option.map_eq_some_iff.mp hresult
          have hold := distinct_table_iff.mp (hentries.of_lookup hlookup)
          exact hentries.set_table origin (ih old table hold htable)
        · next old hlookup =>
          obtain ⟨tables, htables, rfl⟩ := Option.map_eq_some_iff.mp hresult
          have hold := distinct_tables_iff.mp (hentries.of_lookup hlookup)
          exact hentries.set (distinct_tables_iff.mpr (ih.changeLast hold htables))
        · cases hresult
      · exact nofun

/-- Opening a table by its header keeps the keys apart. -/
theorem preserves_openTable (path : List String) : Preserves (openTable path) := by
  refine Preserves.changeAt (fun name entries result hentries hresult => ?_) path
  beta_reduce at hresult
  split at hresult
  · cases hresult
    exact hentries.set_table .header distinct_nil
  · next table hlookup =>
    cases hresult
    have htable := distinct_table_iff.mp (hentries.of_lookup hlookup)
    exact (hentries.remove name).set_table .header htable
  · cases hresult

theorem preserves_openElement (path : List String) : Preserves (openElement path) := by
  refine Preserves.changeAt (fun name entries result hentries hresult => ?_) path
  have hempty : ∀ table ∈ [([] : Entries)], Distinct table :=
    List.forall_mem_singleton.mpr distinct_nil
  beta_reduce at hresult
  split at hresult
  · cases hresult
    exact hentries.set (distinct_tables_iff.mpr hempty)
  · next tables hlookup =>
    cases hresult
    have htables := distinct_tables_iff.mp (hentries.of_lookup hlookup)
    exact hentries.set (distinct_tables_iff.mpr (List.forall_mem_append.mpr ⟨htables, hempty⟩))
  · cases hresult

/-- Inserting under a dotted key keeps the keys apart. -/
theorem preserves_insertDotted (hvalue : value.Distinct) (name : String) (nested : Bool)
    (path : List String) : ∀ origin, Preserves (insertDotted name value nested origin path) := by
  induction path with
  | nil =>
    intro origin entries result hentries hresult
    rw [insertDotted] at hresult
    split at hresult
    · next hnew =>
      cases hresult
      rw [Bool.and_eq_true, Option.isNone_iff_eq_none] at hnew
      exact hentries.append_value hnew.2 hvalue
    · cases hresult
  | cons step path ih =>
    intro origin entries result hentries hresult
    rw [insertDotted] at hresult
    split at hresult
    · obtain ⟨table, htable, rfl⟩ := Option.map_eq_some_iff.mp hresult
      exact hentries.set_table .dotted (ih .dotted [] table distinct_nil htable)
    · cases hresult
    · next origin old _ hlookup =>
      obtain ⟨table, htable, rfl⟩ := Option.map_eq_some_iff.mp hresult
      have hold := distinct_table_iff.mp (hentries.of_lookup hlookup)
      exact hentries.set_table origin (ih origin old table hold htable)
    · next old hlookup =>
      obtain ⟨tables, htables, rfl⟩ := Option.map_eq_some_iff.mp hresult
      have hold := distinct_tables_iff.mp (hentries.of_lookup hlookup)
      exact hentries.set (distinct_tables_iff.mpr ((ih .header).changeLast hold htables))
    · cases hresult

theorem preserves_insert (hvalue : value.Distinct) (key : List String) :
    Preserves (insert key value) := by
  intro entries result hentries hresult
  rw [insert] at hresult
  split at hresult
  · cases hresult
  · exact preserves_insertDotted hvalue _ _ _ _ entries result hentries hresult

/-- Inserting below a header keeps the keys apart. -/
theorem preserves_insertAt (hvalue : value.Distinct) (key header : List String) :
    Preserves (insertAt key value header) := by
  intro entries result hentries hresult
  rw [insertAt] at hresult
  split at hresult
  · exact preserves_insert hvalue key entries result hentries hresult
  · refine Preserves.changeAt (fun name entries result hentries hresult => ?_) header entries result
      hentries hresult
    beta_reduce at hresult
    split at hresult
    · next origin old hlookup =>
      obtain ⟨table, htable, rfl⟩ := Option.map_eq_some_iff.mp hresult
      have hold := distinct_table_iff.mp (hentries.of_lookup hlookup)
      exact hentries.set_table origin (preserves_insert hvalue key old table hold htable)
    · next old hlookup =>
      obtain ⟨tables, htables, rfl⟩ := Option.map_eq_some_iff.mp hresult
      have hold := distinct_tables_iff.mp (hentries.of_lookup hlookup)
      exact hentries.set
        (distinct_tables_iff.mpr ((preserves_insert hvalue key).changeLast hold htables))
    · cases hresult

theorem values_eq_map (entries : Entries) :
    values entries = entries.map fun entry => (entry.1, entryValue entry.2) := by
  induction entries with
  | nil => rfl
  | cons entry entries ih =>
    obtain ⟨name, entry⟩ := entry
    rw [values, ih, List.map_cons]

theorem tableValues_eq_map (tables : List Entries) :
    tableValues tables = tables.map fun table => .table (values table) := by
  induction tables with
  | nil => rfl
  | cons table tables ih => rw [tableValues, ih, List.map_cons]

/-- A table of values has no key twice if its entries have none. -/
theorem distinct_table_values (hkeys : (entries.map Prod.fst).Nodup)
    (hvalues : ∀ entry ∈ entries, (entryValue entry.2).Distinct) :
    (Value.table (values entries)).Distinct := by
  rw [values_eq_map]
  refine .table ?_ (List.forall_mem_map.mpr hvalues)
  rwa [List.map_map]

/-- The value of an entry has no key twice if the entry has none. -/
theorem distinct_entryValue (hentry : entry.Distinct) : (entryValue entry).Distinct := by
  induction hentry with
  | value hvalue => exact hvalue
  | table hkeys _ ih => exact distinct_table_values hkeys ih
  | tables hkeys _ ih =>
    rw [entryValue, tableValues_eq_map]
    refine .array (List.forall_mem_map.mpr fun table htable => ?_)
    exact distinct_table_values (hkeys table htable) (ih table htable)

/-- The values of a table without a repeated key have none either. -/
theorem Distinct.values (hentries : entries.Distinct) : (Value.table (values entries)).Distinct :=
  distinct_table_values hentries.keys fun entry hentry =>
    distinct_entryValue (hentries.entries entry hentry)

end Entries

/-- A value that is no array and no table has no keys at all. -/
theorem distinct_scalar? {word : List Char} {value : Value} (hread : scalar? word = some value) :
    value.Distinct := by
  unfold scalar? at hread
  split_ifs at hread
  · cases hread
    exact .boolean true
  · cases hread
    exact .boolean false
  · cases hread
    exact .datetime _
  · cases hread
    exact .float _
  · obtain ⟨number, -, rfl⟩ := Option.map_eq_some_iff.mp hread
    exact .integer number

/-- What every step keeps is kept by all of them together. -/
theorem of_foldlM {α β : Type} {step : β → α → Option β} {motive : β → Prop} {items : List α}
    (hstep : ∀ item ∈ items, ∀ state next, motive state → step state item = some next → motive next)
    {start result : β} (hstart : motive start) (hfold : items.foldlM step start = some result) :
    motive result := by
  induction items generalizing start with
  | nil =>
    cases hfold
    exact hstart
  | cons item items ih =>
    rw [List.foldlM_cons, Option.bind_eq_bind, Option.bind_eq_some_iff] at hfold
    obtain ⟨next, hnext, hrest⟩ := hfold
    exact ih (fun other hother => hstep other (List.mem_cons_of_mem item hother))
      (hstep item List.mem_cons_self start next hstart hnext) hrest

/-- An inline table that is read has no key twice. -/
theorem distinct_inlineTable? {members : List (List String × Value)} {value : Value}
    (hmembers : ∀ member ∈ members, member.2.Distinct)
    (hread : inlineTable? members = some value) : value.Distinct := by
  simp only [inlineTable?, Option.bind_eq_bind, Option.bind_eq_some_iff] at hread
  obtain ⟨entries, hentries, ⟨rfl⟩⟩ := hread
  have hdistinct : Entries.Distinct entries :=
    of_foldlM (fun member hmember => Entries.preserves_insert (hmembers member hmember) member.1)
      Entries.distinct_nil hentries
  exact hdistinct.values

/-- Values, and what is left of an array or of an inline table, are read with so much fuel without
a key that occurs twice. -/
structure ReadsDistinct (fuel : Nat) : Prop where
  value : ∀ {depth text value rest}, value? fuel depth text = some (value, rest) → value.Distinct
  elements : ∀ {depth read text value rest}, (∀ element ∈ read, element.Distinct) →
    elements? fuel depth read text = some (value, rest) → value.Distinct
  members : ∀ {depth read text value rest}, (∀ member ∈ read, member.2.Distinct) →
    members? fuel depth read text = some (value, rest) → value.Distinct

namespace ReadsDistinct

variable {fuel depth : Nat} {text rest : List Char} {value : Value}

/-- One level of fuel more, for a value. -/
theorem value_succ (hfuel : ReadsDistinct fuel)
    (hread : value? (fuel + 1) depth text = some (value, rest)) : value.Distinct := by
  rw [value?.eq_def] at hread
  dsimp only at hread
  split at hread
  · exact hfuel.elements (List.forall_mem_nil _) hread
  · split at hread
    · cases hread
      exact .table .nil nofun
    · exact hfuel.members (List.forall_mem_nil _) hread
  · cases hread
  · cases hread
  · obtain ⟨_, -, heq⟩ := Option.map_eq_some_iff.mp hread
    cases heq
    exact .string _
  · obtain ⟨_, -, heq⟩ := Option.map_eq_some_iff.mp hread
    cases heq
    exact .string _
  · obtain ⟨_, hscalar, heq⟩ := Option.map_eq_some_iff.mp hread
    cases heq
    exact distinct_scalar? hscalar

theorem elements_succ (hfuel : ReadsDistinct fuel) {read : List Value}
    (hdistinct : ∀ element ∈ read, element.Distinct)
    (hread : elements? (fuel + 1) depth read text = some (value, rest)) : value.Distinct := by
  rw [elements?] at hread
  simp only [Option.bind_eq_bind, Option.bind_eq_some_iff] at hread
  obtain ⟨_, -, hread⟩ := hread
  split at hread
  · cases hread
    exact .array (by simpa using hdistinct)
  · obtain ⟨⟨element, later⟩, helement, hread⟩ := Option.bind_eq_some_iff.mp hread
    have hall : ∀ other ∈ element :: read, other.Distinct :=
      List.forall_mem_cons.mpr ⟨hfuel.value helement, hdistinct⟩
    obtain ⟨_, -, hread⟩ := Option.bind_eq_some_iff.mp hread
    split at hread
    · exact hfuel.elements hall hread
    · cases hread
      exact .array fun other hother => hall other (List.mem_reverse.mp hother)
    · cases hread

theorem members_succ (hfuel : ReadsDistinct fuel) {read : List (List String × Value)}
    (hdistinct : ∀ member ∈ read, member.2.Distinct)
    (hread : members? (fuel + 1) depth read text = some (value, rest)) : value.Distinct := by
  rw [members?] at hread
  simp only [Option.bind_eq_bind, Option.bind_eq_some_iff] at hread
  obtain ⟨⟨key, _⟩, -, hread⟩ := hread
  dsimp only at hread
  split at hread
  · obtain ⟨⟨member, later⟩, hmember, hread⟩ := Option.bind_eq_some_iff.mp hread
    have hall : ∀ other ∈ (key, member) :: read, other.2.Distinct :=
      List.forall_mem_cons.mpr ⟨hfuel.value hmember, hdistinct⟩
    dsimp only at hread
    split at hread
    · exact hfuel.members hall hread
    · obtain ⟨table, htable, heq⟩ := Option.bind_eq_some_iff.mp hread
      cases heq
      exact distinct_inlineTable?
        (fun other hother => hall other (List.mem_reverse.mp hother)) htable
    · cases hread
  · cases hread

end ReadsDistinct

/-- Whatever value is read has no key twice. -/
theorem readsDistinct (fuel : Nat) : ReadsDistinct fuel := by
  induction fuel with
  | zero =>
    constructor
    · intro _ _ _ _ hread
      rw [value?] at hread
      cases hread
    · intro _ _ _ _ _ _ hread
      rw [elements?] at hread
      cases hread
    · intro _ _ _ _ _ _ hread
      rw [members?] at hread
      cases hread
  | succ fuel ih => exact ⟨ih.value_succ, ih.elements_succ, ih.members_succ⟩

/-- The values in a statement have no key twice. -/
def Statement.Distinct : Statement → Prop
  | .keyValue _ value => value.Distinct
  | _ => True

theorem distinct_statement? {text rest : List Char} {statement : Statement}
    (hread : statement? text = some (statement, rest)) : statement.Distinct := by
  rw [statement?.eq_def] at hread
  split at hread <;> simp only [Option.bind_eq_bind, Option.bind_eq_some_iff] at hread
  · obtain ⟨_, -, hread⟩ := hread
    split at hread
    · cases hread
      trivial
    · cases hread
  · obtain ⟨_, -, hread⟩ := hread
    split at hread
    · cases hread
      trivial
    · cases hread
  · obtain ⟨_, -, hread⟩ := hread
    split at hread
    · obtain ⟨⟨value, _⟩, hvalue, heq⟩ := Option.bind_eq_some_iff.mp hread
      cases heq
      exact (readsDistinct _).value hvalue
    · cases hread

/-- No value of the statements of a document has a key twice. -/
theorem distinct_statements? {fuel : Nat} {text : List Char} {statements : List Statement}
    (hread : statements? fuel text = some statements) :
    ∀ statement ∈ statements, statement.Distinct := by
  induction fuel generalizing text statements with
  | zero =>
    rw [statements?] at hread
    cases hread
  | succ fuel ih =>
    rw [statements?] at hread
    split at hread
    · cases hread
      exact List.forall_mem_nil _
    · obtain ⟨_, -, hread⟩ := Option.bind_eq_some_iff.mp hread
      exact ih hread
    · split at hread
      · exact ih hread
      · simp only [Option.bind_eq_bind, Option.bind_eq_some_iff] at hread
        obtain ⟨⟨statement, _⟩, hstatement, _, -, more, hmore, ⟨rfl⟩⟩ := hread
        exact List.forall_mem_cons.mpr ⟨distinct_statement? hstatement, ih hmore⟩

/-- A statement that is taken in keeps the keys of the document apart. -/
theorem Document.distinct_add {document result : Document} {statement : Statement}
    (hdocument : document.entries.Distinct) (hstatement : statement.Distinct)
    (hadd : document.add statement = some result) : result.entries.Distinct := by
  cases statement with
  | header path =>
    obtain ⟨entries, hentries, rfl⟩ := Option.map_eq_some_iff.mp hadd
    exact Entries.preserves_openTable path _ _ hdocument hentries
  | element path =>
    obtain ⟨entries, hentries, rfl⟩ := Option.map_eq_some_iff.mp hadd
    exact Entries.preserves_openElement path _ _ hdocument hentries
  | keyValue key value =>
    obtain ⟨entries, hentries, rfl⟩ := Option.map_eq_some_iff.mp hadd
    exact Entries.preserves_insertAt hstatement key _ _ _ hdocument hentries

/-- No table of a document has a key twice. -/
theorem distinct_parse? {text : String} {tables : List (String × Value)}
    (hparse : parse? text = some tables) : (Value.table tables).Distinct := by
  simp only [parse?, Option.bind_eq_bind, Option.bind_eq_some_iff] at hparse
  obtain ⟨statements, hstatements, document, hdocument, ⟨rfl⟩⟩ := hparse
  have hentries : document.entries.Distinct :=
    of_foldlM (motive := fun document : Document => document.entries.Distinct)
      (fun statement hstatement _ _ hstate hadd =>
        Document.distinct_add hstate (distinct_statements? hstatements statement hstatement) hadd)
      Entries.distinct_nil hdocument
  exact hentries.values

end CheckHarness.Toml
