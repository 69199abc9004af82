import CheckHarness.Config.Setting
import CheckHarness.Proofs.Fault
import CheckHarness.Proofs.Lookup

namespace CheckHarness

/-- What a source says about the settings. -/
abbrev Layer := (setting : Setting) → Option setting.Value

namespace Config

/-- The configuration with the given values. -/
def ofValues (value : (setting : Setting) → setting.Value) : Config where
  bindAddress := value .bindAddress
  checkerName := value .checkerName
  servicePort := value .servicePort
  serviceId := value .serviceId
  connectTimeout := value .connectTimeout
  bufferCapacity := value .bufferCapacity
  readChunkSize := value .readChunkSize
  ioTimeout := value .ioTimeout
  logLevel := value .logLevel
  logFormat := value .logFormat
  requestGrace := value .requestGrace

/-- The configuration with what a layer says over it. -/
def under (config : Config) (layer : Layer) : Config :=
  ofValues fun setting => (layer setting).getD (config.get setting)

/-- Below a layer every setting has the value of the layer, or else its own. -/
@[simp]
theorem get_under (config : Config) (layer : Layer) (setting : Setting) :
    (config.under layer).get setting = (layer setting).getD (config.get setting) := by
  cases setting <;> rfl

/-- What a layer makes of a configuration is known setting by setting. -/
theorem eq_under_iff {config result : Config} {layer : Layer} :
    result = config.under layer ↔
      ∀ setting, result.get setting = (layer setting).getD (config.get setting) := by
  refine ⟨?_, fun hget => ext_get fun setting => (hget setting).trans (get_under ..).symm⟩
  rintro rfl setting
  exact get_under config layer setting

/-- Setting a value is what a layer does that says nothing else. -/
theorem set_eq_under {setting : Setting} {value : setting.Value} {layer : Layer}
    (hvalue : layer setting = some value) (hsilent : ∀ other, other ≠ setting → layer other = none)
    (config : Config) : config.set setting value = config.under layer := by
  rw [eq_under_iff]
  intro other
  by_cases hother : other = setting
  · subst hother
    rw [get_set, hvalue, Option.getD_some]
  · rw [get_set_of_ne config value hother, hsilent other hother, Option.getD_none]

@[simp]
theorem under_silent (config : Config) : config.under (fun _ => none) = config :=
  ext_get fun setting => get_under config _ setting

end Config

section Entries

open Config

variable {κ ν ε : Type} [DecidableEq κ] {keys : List κ} {name : κ → String} {owner : Setting → κ}
  {layer : κ → ν → Layer} {Readable : κ → ν → Prop} {step : Config → String × ν → Except ε Config}
  {entries : List (String × ν)} {config result : Config}

/-- What entries say about the settings, each of which has a key that owns it: that which the entry
with the name of the key does. -/
def layerOf (keys : List κ) (name : κ → String) (owner : Setting → κ) (layer : κ → ν → Layer)
    (entries : List (String × ν)) : Layer := fun setting =>
  if owner setting ∈ keys then
    (entries.lookup (name (owner setting))).bind fun node => layer (owner setting) node setting
  else none

/-- An entry that no key has the name of says nothing. -/
theorem layerOf_cons_of_unknown {entry : String × ν}
    (hunknown : ∀ key ∈ keys, name key ≠ entry.1) :
    layerOf keys name owner layer (entry :: entries) = layerOf keys name owner layer entries := by
  funext setting
  unfold layerOf
  split
  · next howner => rw [lookup_cons_of_ne (hunknown _ howner)]
  · rfl

/-- The first entry says what it does, and takes nothing away that later ones say. -/
theorem under_layerOf_cons {key : κ} {node : ν} (hkey : key ∈ keys)
    (hname : ∀ key ∈ keys, ∀ other ∈ keys, name key = name other → key = other)
    (hsilent : ∀ setting, owner setting ≠ key → layer key node setting = none)
    (hnew : name key ∉ entries.map Prod.fst) :
    config.under (layerOf keys name owner layer ((name key, node) :: entries)) =
      (config.under (layer key node)).under (layerOf keys name owner layer entries) := by
  refine ext_get fun setting => ?_
  simp only [get_under, layerOf]
  by_cases howner : owner setting = key
  · rw [howner, if_pos hkey, List.lookup_cons_self, lookup_eq_none_iff_notMem.mpr hnew]
    simp
  · rw [hsilent setting howner]
    by_cases hmem : owner setting ∈ keys
    · have hne : name (owner setting) ≠ name key := fun heq => howner (hname _ hmem _ hkey heq)
      simp only [if_pos hmem, lookup_cons_of_ne hne, Option.getD_none]
    · simp only [if_neg hmem, Option.getD_none]

/-- Every entry that has a key is readable: the first one is and so are the others. -/
theorem readable_cons_iff {key : κ} {node : ν} (hkey : key ∈ keys)
    (hname : ∀ key ∈ keys, ∀ other ∈ keys, name key = name other → key = other)
    (hnew : name key ∉ entries.map Prod.fst) :
    (∀ other ∈ keys, ∀ value, ((name key, node) :: entries).lookup (name other) = some value →
      Readable other value) ↔
      Readable key node ∧
        ∀ other ∈ keys, ∀ value, entries.lookup (name other) = some value →
          Readable other value := by
  have hother : ∀ other ∈ keys, other ≠ key →
      ((name key, node) :: entries).lookup (name other) = entries.lookup (name other) :=
    fun other hmem hne => lookup_cons_of_ne fun heq => hne (hname _ hmem _ hkey heq)
  constructor
  · intro hreads
    refine ⟨hreads key hkey node List.lookup_cons_self, fun other hmem value hlookup => ?_⟩
    by_cases hsame : other = key
    · rw [hsame, lookup_eq_none_iff_notMem.mpr hnew] at hlookup
      cases hlookup
    · exact hreads other hmem value ((hother other hmem hsame).trans hlookup)
  · rintro ⟨hread, hreads⟩ other hmem value hlookup
    by_cases hsame : other = key
    · subst hsame
      rw [List.lookup_cons_self, Option.some.injEq] at hlookup
      exact hlookup ▸ hread
    · exact hreads other hmem value ((hother other hmem hsame).symm.trans hlookup)

/-- Entries under different names are read if each of them is. Every one says what it would say
alone. -/
theorem foldlM_eq_ok_iff
    (hname : ∀ key ∈ keys, ∀ other ∈ keys, name key = name other → key = other)
    (hsilent : ∀ key node setting, owner setting ≠ key → layer key node setting = none)
    (hskip : ∀ config entry, (∀ key ∈ keys, name key ≠ entry.1) → step config entry = .ok config)
    (hstep : ∀ config result, ∀ key ∈ keys, ∀ node, (name key, node) ∈ entries →
      (step config (name key, node) = .ok result ↔
        Readable key node ∧ result = config.under (layer key node)))
    (hdistinct : (entries.map Prod.fst).Nodup) :
    entries.foldlM step config = .ok result ↔
      (∀ key ∈ keys, ∀ node, entries.lookup (name key) = some node → Readable key node) ∧
        result = config.under (layerOf keys name owner layer entries) := by
  induction entries generalizing config with
  | nil =>
    have hlayer : layerOf keys name owner layer [] = fun _ => none := by
      funext setting
      simp [layerOf]
    rw [hlayer, under_silent]
    exact ⟨fun hok => ⟨nofun, (Except.ok.inj hok).symm⟩, fun hok => congrArg _ hok.2.symm⟩
  | cons entry entries ih =>
    obtain ⟨found, node⟩ := entry
    rw [List.map_cons, List.nodup_cons] at hdistinct
    have hrest := fun config => @ih config
      (fun config result key hkey node hnode =>
        hstep config result key hkey node (List.mem_cons_of_mem _ hnode)) hdistinct.2
    rw [List.foldlM_cons, bind_eq_ok_iff]
    by_cases hknown : ∃ key ∈ keys, name key = found
    -- No key comes twice, so nothing that follows says anything about this one.
    · obtain ⟨key, hkey, rfl⟩ := hknown
      rw [under_layerOf_cons hkey hname (hsilent key node) hdistinct.1,
        readable_cons_iff hkey hname hdistinct.1]
      simp only [hstep config _ key hkey node List.mem_cons_self, hrest]
      constructor
      · rintro ⟨_, ⟨hread, rfl⟩, hreads, rfl⟩
        exact ⟨⟨hread, hreads⟩, rfl⟩
      · rintro ⟨⟨hread, hreads⟩, rfl⟩
        exact ⟨_, ⟨hread, rfl⟩, hreads, rfl⟩
    · have hunknown : ∀ key ∈ keys, name key ≠ found := fun key hkey heq =>
        hknown ⟨key, hkey, heq⟩
      rw [layerOf_cons_of_unknown hunknown]
      simp only [hskip config (found, node) hunknown, Except.ok.injEq, exists_eq_left', hrest]
      refine and_congr_left fun _ => forall₂_congr fun key hkey => ?_
      rw [lookup_cons_of_ne (hunknown key hkey)]

end Entries

end CheckHarness
