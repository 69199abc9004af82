import CheckHarness.Config.Document
import CheckHarness.Proofs.Config.Layer
import CheckHarness.Proofs.Toml.Keys

namespace CheckHarness

theorem Setting.name_injective {setting other : Setting} (hname : setting.name = other.name) :
    setting = other := by
  have hfind : ∀ setting : Setting,
      all.find? (fun other => other.name == setting.name) = some setting := by
    intro setting
    cases setting <;> decide
  have hsetting := hfind setting
  rw [hname, hfind other] at hsetting
  exact (Option.some.inj hsetting).symm

namespace ConfigSection

theorem mem_all (part : ConfigSection) : part ∈ all := by
  cases part <;> decide

theorem name_injective {part other : ConfigSection} (hname : part.name = other.name) :
    part = other := by
  cases part <;> cases other <;> first | rfl | exact absurd hname (by decide)

theorem mem_settings_iff {part : ConfigSection} {setting : Setting} :
    setting ∈ part.settings ↔ setting.group = part := by
  simp [settings, Setting.mem_all]

theorem distinct_names (part : ConfigSection) : (part.settings.map Setting.name).Nodup := by
  cases part <;> decide

/-- No section has a key twice, also one whose values stand in an array. -/
theorem distinct_entries? {part : ConfigSection} {node : Toml.Value}
    {entries : List (String × Toml.Value)} (hnode : node.Distinct)
    (hentries : part.entries? node = some entries) : (entries.map Prod.fst).Nodup := by
  cases hnode with
  | table hkeys _ =>
    cases hentries
    exact hkeys
  | array _ =>
    cases hentries
    exact (map_fst_zip_sublist _ _).nodup part.distinct_names
  | datetime _ =>
    cases hentries
    exact .nil
  | string | integer | float | boolean => cases hentries

end ConfigSection

namespace Config

theorem require_eq_ok_iff {value : Option α} {a : α} : require value = .ok a ↔ value = some a := by
  cases value <;> simp [require]

/-- What an entry with the name of a setting says about it. -/
def entryLayer (key : Setting) (node : Toml.Value) : Layer := fun setting =>
  if setting = key then (setting.ofToml node).toOption else none

section Readers

variable {settings : List Setting} {config result : Config} {node : Toml.Value}
  {entries : List (String × Toml.Value)} {part : ConfigSection}

/-- An entry of a setting is read if its value can be, and is then laid over what was read before.
-/
theorem readEntry_eq_ok_iff {key : Setting} (hkey : key ∈ settings) :
    readEntry settings config (key.name, node) = .ok result ↔
      (∃ value, key.ofToml node = .ok value) ∧ result = config.under (entryLayer key node) := by
  have hfind : (settings.find? fun setting => setting.name == key.name) = some key :=
    find?_name_eq_some (fun _ _ _ _ => Setting.name_injective) hkey
  rw [readEntry, hfind]
  dsimp only
  cases hvalue : key.ofToml node with
  | error failure => simp [Except.map]
  | ok value =>
    have hset : config.set key value = config.under (entryLayer key node) := by
      refine set_eq_under ?_ (fun other hother => if_neg hother) config
      simp [hvalue, Except.toOption]
    rw [← hset]
    exact ⟨fun hok => ⟨⟨value, rfl⟩, (Except.ok.inj hok).symm⟩, fun hok => hok.2 ▸ rfl⟩

/-- The entries of a section are read if every value that belongs to a setting can be. -/
theorem readEntries_eq_ok_iff (hdistinct : (entries.map Prod.fst).Nodup) :
    readEntries settings entries config = .ok result ↔
      (∀ setting ∈ settings, ∀ node, entries.lookup setting.name = some node →
        ∃ value, setting.ofToml node = .ok value) ∧
      result = config.under (layerOf settings Setting.name id entryLayer entries) := by
  refine foldlM_eq_ok_iff (fun _ _ _ _ => Setting.name_injective) ?_ ?_ ?_ hdistinct
  · intro key node setting hsetting
    exact if_neg hsetting
  · intro config entry hunknown
    rw [readEntry, find?_name_eq_none hunknown]
  · intro config result key hkey node _
    exact readEntry_eq_ok_iff hkey

/-- What a document says under the name of a section about the settings in it. -/
def sectionLayer (part : ConfigSection) (node : Toml.Value) : Layer := fun setting =>
  if setting.group = part then
    ((part.entries? node).bind fun entries => entries.lookup setting.name).bind fun value =>
      (setting.ofToml value).toOption
  else none

/-- A section that can be read, with all its values. -/
def SectionReads (part : ConfigSection) (node : Toml.Value) : Prop :=
  ∃ entries, part.entries? node = some entries ∧
    ∀ setting ∈ part.settings, ∀ value, entries.lookup setting.name = some value →
      ∃ v, setting.ofToml value = .ok v

theorem layerOf_settings (hentries : part.entries? node = some entries) :
    layerOf part.settings Setting.name id entryLayer entries = sectionLayer part node := by
  funext setting
  simp [layerOf, sectionLayer, entryLayer, ConfigSection.mem_settings_iff, hentries]

/-- A section that can be read is laid over what was read before. -/
theorem readSection_eq_ok_iff (hnode : node.Distinct) :
    readSection config (part.name, node) = .ok result ↔
      SectionReads part node ∧ result = config.under (sectionLayer part node) := by
  have hfind : (ConfigSection.all.find? fun other => other.name == part.name) = some part :=
    find?_name_eq_some (fun _ _ _ _ => ConfigSection.name_injective) part.mem_all
  rw [readSection, hfind]
  simp only [bind_eq_ok_iff, require_eq_ok_iff, SectionReads, ← exists_and_right, and_assoc]
  refine exists_congr fun entries => and_congr_right fun hentries => ?_
  rw [readEntries_eq_ok_iff (ConfigSection.distinct_entries? hnode hentries),
    layerOf_settings hentries]

end Readers

/-- What stands in a document for a setting. -/
def documentNode? (tables : List (String × Toml.Value)) (setting : Setting) : Option Toml.Value :=
  ((tables.lookup setting.group.name).bind setting.group.entries?).bind
    (List.lookup setting.name)

/-- What a document says about the settings. -/
def documentLayer (tables : List (String × Toml.Value)) : Layer := fun setting =>
  (documentNode? tables setting).bind fun node => (setting.ofToml node).toOption

/-- A document that describes a configuration: its sections are such, and what stands in it for a
setting is a value of it. -/
structure Describes (tables : List (String × Toml.Value)) : Prop where
  sections : ∀ part node, tables.lookup (ConfigSection.name part) = some node →
    ∃ entries, part.entries? node = some entries
  values : ∀ setting node, documentNode? tables setting = some node →
    ∃ value, setting.ofToml node = .ok value

section Documents

variable {tables : List (String × Toml.Value)} {config : Config}

/-- A document describes a configuration if every section that it has can be read. -/
theorem describes_iff :
    Describes tables ↔
      ∀ part ∈ ConfigSection.all, ∀ node, tables.lookup part.name = some node →
        SectionReads part node := by
  constructor
  · intro hdescribes part _ node hnode
    obtain ⟨entries, hentries⟩ := hdescribes.sections part node hnode
    refine ⟨entries, hentries, fun setting hsetting value hvalue => ?_⟩
    obtain rfl := ConfigSection.mem_settings_iff.mp hsetting
    apply hdescribes.values setting value
    rw [documentNode?, hnode, Option.bind_some, hentries, Option.bind_some, hvalue]
  · intro hreads
    constructor
    · intro part node hnode
      obtain ⟨entries, hentries, -⟩ := hreads part part.mem_all node hnode
      exact ⟨entries, hentries⟩
    · intro setting value hvalue
      simp only [documentNode?, Option.bind_eq_some_iff] at hvalue
      obtain ⟨entries, ⟨node, hnode, hentries⟩, hlookup⟩ := hvalue
      obtain ⟨found, hfound, hvalues⟩ := hreads _ setting.group.mem_all node hnode
      obtain rfl : entries = found := Option.some.inj (hentries.symm.trans hfound)
      exact hvalues setting (ConfigSection.mem_settings_iff.mpr rfl) value hlookup

/-- The sections of a document make up its layer. -/
theorem layerOf_sections :
    layerOf ConfigSection.all ConfigSection.name Setting.group sectionLayer tables =
      documentLayer tables := by
  funext setting
  simp [layerOf, ConfigSection.mem_all, sectionLayer, documentLayer, documentNode?,
    Option.bind_assoc]

/-- A document is read if it describes a configuration, and every setting has the value that stands
in the document for it. -/
theorem ofTables_eq_ok_iff (hdistinct : (Toml.Value.table tables).Distinct) :
    ofTables tables = .ok config ↔
      Describes tables ∧ config = standard.under (documentLayer tables) := by
  obtain ⟨hkeys, hnodes⟩ : (tables.map Prod.fst).Nodup ∧ ∀ entry ∈ tables, entry.2.Distinct := by
    cases hdistinct with
    | table hkeys hentries => exact ⟨hkeys, hentries⟩
  rw [describes_iff, ← layerOf_sections]
  refine foldlM_eq_ok_iff (fun _ _ _ _ => ConfigSection.name_injective) ?_ ?_ ?_ hkeys
  · intro part node setting hgroup
    exact if_neg hgroup
  · intro config entry hunknown
    rw [readSection, find?_name_eq_none hunknown]
  · intro config result part _ node hnode
    exact readSection_eq_ok_iff (hnodes _ hnode)

/-- A text is read if it is a document that describes a configuration, the one over the standard. -/
theorem parse_eq_ok_iff {text : String} :
    parse text = .ok config ↔
      ∃ tables, Toml.parse? text = some tables ∧ Describes tables ∧
        config = standard.under (documentLayer tables) := by
  simp only [parse, bind_eq_ok_iff, require_eq_ok_iff]
  refine exists_congr fun tables => and_congr_right fun hparse => ?_
  exact ofTables_eq_ok_iff (Toml.distinct_parse? hparse)

end Documents

end Config

end CheckHarness
