import CheckHarness.Proofs.Config.Document
import CheckHarness.Proofs.Lists
import CheckHarness.Proofs.Time.Duration
import CheckHarness.Proofs.Toml.Printer

namespace CheckHarness

namespace Setting

open Config (require)

/-- What a setting is written as: a value that stands for it, or nothing if it has its standard
value. -/
inductive Writes (setting : Setting) (value : setting.Value) : List Toml.Value → Prop where
  | absent (hvalue : value = Config.standard.get setting) : Writes setting value []
  | node {node} (hplain : Toml.IsPlain node) (hread : setting.ofToml node = .ok value) :
    Writes setting value [node]

section Writes

variable {setting : Setting} {value : setting.Value} {values : List Toml.Value} {node : Toml.Value}

theorem Writes.length_le (hwrites : setting.Writes value values) : values.length ≤ 1 := by
  cases hwrites <;> simp

/-- What is written for a setting is a plain value. -/
theorem Writes.isPlain (hwrites : setting.Writes value values) :
    ∀ node ∈ values, Toml.IsPlain node := by
  cases hwrites with
  | absent => exact List.forall_mem_nil _
  | node hplain => exact List.forall_mem_singleton.mpr hplain

/-- What is written for a setting can be read. -/
theorem Writes.exists_ofToml (hwrites : setting.Writes value values)
    (hnode : values.head? = some node) : ∃ value, setting.ofToml node = .ok value := by
  cases hwrites with
  | absent => cases hnode
  | node _ hread =>
    cases hnode
    exact ⟨value, hread⟩

/-- What is written for a setting is read back, and what is left out is standard. -/
theorem Writes.get_eq (hwrites : setting.Writes value values) :
    value = ((values.head?.bind fun node => (setting.ofToml node).toOption).getD
      (Config.standard.get setting)) := by
  cases hwrites with
  | absent hvalue => exact hvalue
  | node _ hread =>
    rw [List.head?_cons, Option.bind_some, hread]
    rfl

end Writes

theorem natural?_natCast {limit n : Nat} (hn : n < limit) :
    natural? limit (.integer n) = some n := by
  rw [natural?, if_pos (by omega), Int.toNat_natCast]

theorem duration_ofDuration (d : Duration) : duration (ofDuration d) = .ok d := by
  change (Duration.parse d.write).mapError _ = .ok d
  rw [Duration.parse_write]
  rfl

theorem require_word (n : UInt64) :
    require ((natural? UInt64.size (.integer n.toNat)).map UInt64.ofNat) = .ok n := by
  rw [natural?_natCast n.toNat_lt, Option.map_some, UInt64.ofNat_toNat]
  rfl

theorem exists_integer?_iff {n : Nat} :
    (∃ values, (integer? n).map (fun node => [node]) = some values) ↔ n < Toml.integerBound := by
  unfold integer?
  split <;> simp [*]

/-- A setting that is a number is read back if it can be written. -/
theorem writes_integer? {setting : Setting} {value : setting.Value} {n : Nat}
    {values : List Toml.Value} (hread : setting.ofToml (.integer n) = .ok value)
    (hvalues : (integer? n).map (fun node => [node]) = some values) : setting.Writes value values := by
  unfold integer? at hvalues
  split at hvalues
  · next hn =>
    cases hvalues
    exact .node (.natural hn) hread
  · cases hvalues

/-- Every setting that can be written is read back. -/
theorem writes_of_toToml? {setting : Setting} {value : setting.Value} {values : List Toml.Value}
    (hvalues : toToml? setting value = some values) : setting.Writes value values := by
  cases setting with
  | bindAddress | checkerName | logLevel =>
    cases hvalues
    exact .node (.string _) rfl
  | servicePort =>
    cases hvalues
    refine .node (.natural (Nat.lt_trans value.toNat_lt (by decide))) ?_
    change require ((natural? UInt16.size (.integer value.toNat)).map UInt16.ofNat) = _
    rw [natural?_natCast value.toNat_lt, Option.map_some, UInt16.ofNat_toNat]
    rfl
  | serviceId | bufferCapacity | readChunkSize =>
    exact writes_integer? (n := UInt64.toNat value) (require_word value) hvalues
  | connectTimeout | requestGrace =>
    cases hvalues
    exact .node (.string _) (duration_ofDuration _)
  | ioTimeout =>
    cases value with
    | none =>
      cases hvalues
      exact .absent rfl
    | some d =>
      cases hvalues
      refine .node (.string _) ?_
      change (duration (ofDuration d)).map some = _
      rw [duration_ofDuration]
      rfl
  | logFormat =>
    cases hvalues
    cases value <;> exact .node (.string _) rfl

/-- Whether the text that a setting holds can be written. -/
def Countable : (setting : Setting) → setting.Value → Prop
  | .bindAddress, text => Toml.Quoting.hasCountableRuns text.toList = true
  | .checkerName, text => Toml.Quoting.hasCountableRuns text.toList = true
  | .logLevel, text => Toml.Quoting.hasCountableRuns text.toList = true
  | _, _ => True

/-- A written span has no quotation marks to count. -/
theorem hasCountableRuns_write (d : Duration) :
    Toml.Quoting.hasCountableRuns d.write.toList = true := by
  have hchars := Duration.isSpanChar_of_parse (Duration.parse_write d)
  have hdouble : ¬ Duration.IsSpanChar '"' := by
    unfold Duration.IsSpanChar
    decide
  have hsingle : ¬ Duration.IsSpanChar '\'' := by
    unfold Duration.IsSpanChar
    decide
  exact Toml.hasCountableRuns_of_notMem (mt (hchars _) hdouble) (mt (hchars _) hsingle)

/-- What a setting is written as can be printed if its text can be. -/
theorem isWritable_iff_of_toToml? {setting : Setting} {value : setting.Value}
    {values : List Toml.Value} (hvalues : toToml? setting value = some values) :
    (∀ node ∈ values, Toml.isWritable node = true) ↔ setting.Countable value := by
  cases setting with
  | bindAddress | checkerName | logLevel =>
    cases hvalues
    rw [List.forall_mem_singleton]
    rfl
  | servicePort =>
    cases hvalues
    simp [Toml.isWritable, Countable]
  | serviceId | bufferCapacity | readChunkSize =>
    obtain ⟨node, hnode, rfl⟩ := Option.map_eq_some_iff.mp hvalues
    unfold integer? at hnode
    split at hnode <;> cases hnode
    simp [Toml.isWritable, Countable]
  | connectTimeout | requestGrace =>
    cases hvalues
    simp [ofDuration, Toml.isWritable, Countable, hasCountableRuns_write]
  | ioTimeout =>
    cases hvalues
    cases value <;> simp [ofDuration, Toml.isWritable, Countable, hasCountableRuns_write]
  | logFormat =>
    cases hvalues
    rw [List.forall_mem_singleton]
    cases value <;> simp [Countable] <;> decide

theorem isBare_name (setting : Setting) : Toml.IsBare setting.name := by
  cases setting <;> exact ⟨by decide, List.all_eq_true.mp (by decide)⟩

end Setting

theorem ConfigSection.isBare_name (part : ConfigSection) : Toml.IsBare part.name := by
  cases part <;> exact ⟨by decide, List.all_eq_true.mp (by decide)⟩

namespace Config

/-- The section with what its settings are written as. -/
def writtenSection (written : Setting → List Toml.Value) (part : ConfigSection) : Toml.Section :=
  ⟨part.name, part.settings.flatMap fun setting =>
    (written setting).map fun node => (setting.name, node)⟩

/-- The document with what the settings are written as. -/
def writtenSections (written : Setting → List Toml.Value) : List Toml.Section :=
  ConfigSection.all.map (writtenSection written)

section Written

variable {config : Config} {written : Setting → List Toml.Value} {parts : List Toml.Section}

/-- The sections of a configuration hold what its settings are written as. -/
theorem toSections?_eq_some
    (hwritten : ∀ setting, setting.toToml? (config.get setting) = some (written setting)) :
    config.toSections? = some (writtenSections written) := by
  refine mapM_eq_some_map _ fun part _ => ?_
  have hentries := mapM_eq_some_map part.settings fun setting _ =>
    congrArg (Option.map fun values : List Toml.Value => values.map fun value =>
      (setting.name, value)) (hwritten setting)
  rw [entriesOf?, hentries]
  rfl

/-- A document is written if each setting is, and it has nothing else in it. -/
theorem exists_written (hparts : config.toSections? = some parts) :
    ∃ written, (∀ setting, Setting.toToml? setting (config.get setting) = some (written setting)) ∧
      parts = writtenSections written := by
  have hsetting : ∀ setting, ∃ values, Setting.toToml? setting (config.get setting) = some values := by
    intro setting
    have hsection := isSome_of_mapM hparts setting.group (ConfigSection.mem_all _)
    rw [Option.isSome_map] at hsection
    obtain ⟨entries, hentries⟩ := Option.isSome_iff_exists.mp hsection
    obtain ⟨columns, hcolumns, -⟩ := Option.map_eq_some_iff.mp hentries
    have hwritten := isSome_of_mapM hcolumns setting (ConfigSection.mem_settings_iff.mpr rfl)
    rw [Option.isSome_map] at hwritten
    exact Option.isSome_iff_exists.mp hwritten
  choose written hwritten using hsetting
  refine ⟨written, hwritten, ?_⟩
  rw [toSections?_eq_some hwritten] at hparts
  exact (Option.some.inj hparts).symm

theorem isPlain_writtenSection
    (hwritten : ∀ setting, Setting.Writes setting (config.get setting) (written setting))
    (part : ConfigSection) : (writtenSection written part).IsPlain where
  name := part.isBare_name
  names := by
    intro entry hentry
    obtain ⟨setting, -, hentry⟩ := List.mem_flatMap.mp hentry
    obtain ⟨node, -, rfl⟩ := List.mem_map.mp hentry
    exact setting.isBare_name
  values := by
    intro entry hentry
    obtain ⟨setting, -, hentry⟩ := List.mem_flatMap.mp hentry
    obtain ⟨node, hnode, rfl⟩ := List.mem_map.mp hentry
    exact (hwritten setting).isPlain node hnode
  distinct :=
    (map_fst_flatMap_sublist fun setting => (hwritten setting).length_le).nodup part.distinct_names

theorem isPlain_writtenSections
    (hwritten : ∀ setting, Setting.Writes setting (config.get setting) (written setting)) :
    ∀ part ∈ writtenSections written, part.IsPlain :=
  List.forall_mem_map.mpr fun part _ => isPlain_writtenSection hwritten part

theorem distinct_section_names : ((writtenSections written).map Toml.Section.name).Nodup := by
  rw [writtenSections, List.map_map]
  change (ConfigSection.all.map ConfigSection.name).Nodup
  decide

theorem lookup_written (part : ConfigSection) :
    (Toml.tables (writtenSections written)).lookup part.name =
      some (.table (writtenSection written part).entries) := by
  rw [Toml.tables, writtenSections, List.map_map]
  exact lookup_map (fun part => Toml.Value.table (writtenSection written part).entries)
    (fun _ _ _ _ => ConfigSection.name_injective) part.mem_all

/-- What stands in a written document for a setting is what it was written as. -/
theorem documentNode?_written (setting : Setting) :
    documentNode? (Toml.tables (writtenSections written)) setting = (written setting).head? := by
  rw [documentNode?, lookup_written, Option.bind_some, ConfigSection.entries?, Option.bind_some]
  exact lookup_flatMap written (fun _ _ _ _ => Setting.name_injective)
    (ConfigSection.mem_settings_iff.mpr rfl)

/-- The document of a configuration describes it. -/
theorem ofTables_written
    (hwritten : ∀ setting, Setting.Writes setting (config.get setting) (written setting)) :
    ofTables (Toml.tables (writtenSections written)) = .ok config := by
  rw [ofTables_eq_ok_iff (Toml.distinct_tables (isPlain_writtenSections hwritten)
    distinct_section_names)]
  refine ⟨⟨?_, ?_⟩, eq_under_iff.mpr ?_⟩
  · intro part node hnode
    rw [lookup_written, Option.some.injEq] at hnode
    exact ⟨(writtenSection written part).entries, hnode ▸ rfl⟩
  · intro setting node hnode
    rw [documentNode?_written] at hnode
    exact (hwritten setting).exists_ofToml hnode
  · intro setting
    rw [documentLayer, documentNode?_written]
    exact (hwritten setting).get_eq

/-- Of a configuration only the texts decide whether its document can be written. -/
theorem all_isWritable_iff
    (hwritten : ∀ setting, Setting.toToml? setting (config.get setting) = some (written setting)) :
    (writtenSections written).all Toml.Section.isWritable = true ↔
      ∀ setting, Setting.Countable setting (config.get setting) := by
  have hplain := isPlain_writtenSections fun setting => Setting.writes_of_toToml? (hwritten setting)
  rw [List.all_eq_true]
  constructor
  · intro hall setting
    have hsection : writtenSection written setting.group ∈ writtenSections written :=
      List.mem_map_of_mem setting.group.mem_all
    have hvalues := (hplain _ hsection).isWritable_iff.mp (hall _ hsection)
    refine (Setting.isWritable_iff_of_toToml? (hwritten setting)).mp fun node hnode => ?_
    refine hvalues (setting.name, node) (List.mem_flatMap.mpr ⟨setting, ?_, ?_⟩)
    · exact ConfigSection.mem_settings_iff.mpr rfl
    · exact List.mem_map_of_mem hnode
  · intro hcountable part hpart
    refine (hplain part hpart).isWritable_iff.mpr fun entry hentry => ?_
    obtain ⟨section', -, rfl⟩ := List.mem_map.mp hpart
    obtain ⟨setting, -, hentry⟩ := List.mem_flatMap.mp hentry
    obtain ⟨node, hnode, rfl⟩ := List.mem_map.mp hentry
    exact (Setting.isWritable_iff_of_toToml? (hwritten setting)).mpr (hcountable setting) node hnode

end Written

variable {config : Config} {parts : List Toml.Section} {text : String}

/-- Every integer of the configuration is one that a document can hold. -/
structure Fits (config : Config) : Prop where
  serviceId : config.serviceId.toNat < Toml.integerBound
  bufferCapacity : config.bufferCapacity.toNat < Toml.integerBound
  readChunkSize : config.readChunkSize.toNat < Toml.integerBound

/-- A configuration can be written as sections if its numbers fit. -/
theorem exists_toSections?_iff : (∃ parts, config.toSections? = some parts) ↔ config.Fits := by
  constructor
  · rintro ⟨parts, hparts⟩
    obtain ⟨written, hwritten, -⟩ := exists_written hparts
    exact ⟨Setting.exists_integer?_iff.mp ⟨_, hwritten .serviceId⟩,
      Setting.exists_integer?_iff.mp ⟨_, hwritten .bufferCapacity⟩,
      Setting.exists_integer?_iff.mp ⟨_, hwritten .readChunkSize⟩⟩
  · rintro ⟨hserviceId, hcapacity, hchunk⟩
    have hsetting : ∀ setting,
        ∃ values, Setting.toToml? setting (config.get setting) = some values := by
      intro setting
      cases setting with
      | serviceId => exact Setting.exists_integer?_iff.mpr hserviceId
      | bufferCapacity => exact Setting.exists_integer?_iff.mpr hcapacity
      | readChunkSize => exact Setting.exists_integer?_iff.mpr hchunk
      | _ => exact ⟨_, rfl⟩
    choose written hwritten using hsetting
    exact ⟨_, toSections?_eq_some hwritten⟩

/-- Only three settings are texts whose quotation marks have to be counted. -/
theorem forall_countable_iff :
    (∀ setting, Setting.Countable setting (config.get setting)) ↔
      ∀ text ∈ [config.bindAddress, config.checkerName, config.logLevel],
        Toml.Quoting.hasCountableRuns text.toList = true := by
  rw [List.forall_mem_cons, List.forall_mem_cons, List.forall_mem_singleton]
  constructor
  · exact fun hall => ⟨hall .bindAddress, hall .checkerName, hall .logLevel⟩
  · rintro ⟨haddress, hname, hlevel⟩ setting
    cases setting <;> trivial

/-- The sections of a configuration are read back. -/
theorem ofTables_of_toSections? (hparts : config.toSections? = some parts) :
    ofTables (Toml.tables parts) = .ok config := by
  obtain ⟨written, hwritten, rfl⟩ := exists_written hparts
  exact ofTables_written fun setting => Setting.writes_of_toToml? (hwritten setting)

/-- Sections can be printed if the quotation marks of the three texts can be counted. -/
theorem render?_isSome_iff (hparts : config.toSections? = some parts) :
    (∃ text, config.render? = some text) ↔
      ∀ text ∈ [config.bindAddress, config.checkerName, config.logLevel],
        Toml.Quoting.hasCountableRuns text.toList = true := by
  obtain ⟨written, hwritten, rfl⟩ := exists_written hparts
  rw [← forall_countable_iff, ← all_isWritable_iff hwritten, render?, hparts, Option.bind_some,
    Toml.render?]
  split <;> simp [*]

/-- The printed document is read back. -/
theorem parse_of_render? (htext : config.render? = some text) : parse text = .ok config := by
  obtain ⟨parts, hparts, hrender⟩ := Option.bind_eq_some_iff.mp htext
  have htables := ofTables_of_toSections? hparts
  obtain ⟨written, hwritten, rfl⟩ := exists_written hparts
  unfold Toml.render? at hrender
  split at hrender
  · cases hrender
    have hplain := isPlain_writtenSections fun setting => Setting.writes_of_toToml? (hwritten setting)
    rw [parse, Toml.parse?_render hplain distinct_section_names]
    exact htables
  · cases hrender

/-- A configuration whose integers a document can hold is written as a document that describes it,
whatever its texts are. Its text can be written if no quotation mark stands in too long a row, and
reading the text gives the configuration. -/
theorem render_readBack (config : Config) (hfits : config.Fits) :
    (∃ parts, config.toSections? = some parts ∧ ofTables (Toml.tables parts) = .ok config) ∧
      ((∃ text, config.render? = some text) ↔
        ∀ text ∈ [config.bindAddress, config.checkerName, config.logLevel],
          Toml.Quoting.hasCountableRuns text.toList = true) ∧
      ∀ text, config.render? = some text → parse text = .ok config := by
  obtain ⟨parts, hparts⟩ := exists_toSections?_iff.mpr hfits
  exact ⟨⟨parts, hparts, ofTables_of_toSections? hparts⟩, render?_isSome_iff hparts,
    fun _ => parse_of_render?⟩

/-- Texts of every kind, the longest span and the shortest one come back. -/
theorem render_readBack_quoted :
    ∃ config : Config, config.Fits ∧ config.bindAddress = "it\x27s \"here\"\r\n" ∧
      config.checkerName = "\\\x27\x27\x27\x07" ∧ config.logLevel = "\"\"\"" ∧
      config.connectTimeout.nanoseconds = 18446744073709551615999999999 ∧
      config.ioTimeout.map Duration.nanoseconds = some 1 ∧
      ∃ text, config.render? = some text ∧ parse text = .ok config := by
  let config : Config :=
    { bindAddress := "it\x27s \"here\"\r\n", checkerName := "\\\x27\x27\x27\x07",
      serviceId := 9223372036854775807,
      connectTimeout := { nanoseconds := 18446744073709551615999999999 },
      ioTimeout := some { nanoseconds := 1 }, logLevel := "\"\"\"", logFormat := .json }
  have hfits : config.Fits := ⟨by decide, by decide, by decide⟩
  obtain ⟨-, hwrites, hreads⟩ := render_readBack config hfits
  obtain ⟨text, htext⟩ := hwrites.mpr (by decide +kernel)
  exact ⟨config, hfits, rfl, rfl, rfl, rfl, rfl, text, htext, hreads text htext⟩

end Config

end CheckHarness
