import CheckHarness.Config.Environment
import CheckHarness.Proofs.Config.Layer

namespace CheckHarness.Config

/-- What the environment says about the settings. -/
def environmentLayer (environment : Environment) : Layer := fun setting =>
  (environment setting.environmentName).bind fun text => (setting.read text).toOption

/-- A variable that is not set, or holds a value of its setting. -/
def VariableReads (environment : Environment) (setting : Setting) : Prop :=
  ∀ text, environment setting.environmentName = some text → ∃ value, setting.read text = .ok value

/-- What a layer says about some of the settings. -/
def only (settings : List Setting) (layer : Layer) : Layer := fun setting =>
  if setting ∈ settings then layer setting else none

variable {environment : Environment} {settings : List Setting} {config result : Config}
  {layer : Layer} {setting : Setting}

theorem environmentLayer_of_unset (hunset : environment setting.environmentName = none) :
    environmentLayer environment setting = none := by
  rw [environmentLayer, hunset, Option.bind_none]

theorem environmentLayer_of_set {text : String}
    (hset : environment setting.environmentName = some text) :
    environmentLayer environment setting = (setting.read text).toOption := by
  rw [environmentLayer, hset, Option.bind_some]

theorem variableReads_of_unset (hunset : environment setting.environmentName = none) :
    VariableReads environment setting := by
  intro text hset
  rw [hunset] at hset
  cases hset

theorem variableReads_iff_of_set {text : String}
    (hset : environment setting.environmentName = some text) :
    VariableReads environment setting ↔ ∃ value, setting.read text = .ok value := by
  simp [VariableReads, hset]

/-- A setting that the layer is silent about makes no difference. -/
theorem only_cons_of_silent (hsilent : layer setting = none) :
    only (setting :: settings) layer = only settings layer := by
  funext other
  by_cases hother : other = setting
  · subst hother
    simp [only, hsilent]
  · simp [only, hother]

/-- A layer over several settings can be laid setting by setting. -/
theorem under_only_cons {value : setting.Value} (hvalue : layer setting = some value)
    (hnew : setting ∉ settings) (config : Config) :
    config.under (only (setting :: settings) layer) =
      (config.set setting value).under (only settings layer) := by
  refine ext_get fun other => ?_
  rw [get_under, get_under]
  by_cases hother : other = setting
  · subst hother
    simp [only, hnew, hvalue]
  · rw [get_set_of_ne config value hother]
    simp [only, hother]

/-- Overrides come to an end if every variable on the way holds a value of its setting. -/
theorem overrideEach_eq_iff (hdistinct : settings.Nodup) :
    overrideEach environment settings config = (result, none) ↔
      (∀ setting ∈ settings, VariableReads environment setting) ∧
        result = config.under (only settings (environmentLayer environment)) := by
  induction settings generalizing config with
  | nil =>
    have honly : only [] (environmentLayer environment) = fun _ => none := rfl
    rw [overrideEach, honly, under_silent]
    simp [eq_comm]
  | cons setting settings ih =>
    rw [List.nodup_cons] at hdistinct
    rw [overrideEach, List.forall_mem_cons]
    cases htext : environment setting.environmentName with
    | none =>
      rw [only_cons_of_silent (environmentLayer_of_unset htext)]
      dsimp only
      rw [ih hdistinct.2]
      simp only [variableReads_of_unset htext, true_and]
    | some text =>
      have hlayer := environmentLayer_of_set htext
      rw [variableReads_iff_of_set htext]
      dsimp only
      cases hread : setting.read text with
      | error failure => simp
      | ok value =>
        rw [hread] at hlayer
        -- A setting is overridden once, so the value that was read stays.
        rw [under_only_cons hlayer hdistinct.1]
        dsimp only
        rw [ih hdistinct.2]
        simp

/-- Overriding ends without a failure exactly if every variable can be read, and then lays the
environment over the configuration. -/
theorem override_eq_iff :
    config.override environment = (result, none) ↔
      (∀ setting, VariableReads environment setting) ∧
        result = config.under (environmentLayer environment) := by
  have honly : only Setting.all (environmentLayer environment) = environmentLayer environment := by
    funext setting
    exact if_pos setting.mem_all
  rw [override, overrideEach_eq_iff (by decide), honly]
  simp only [Setting.mem_all, forall_const]

theorem overridden_eq_ok_iff :
    config.overridden environment = .ok result ↔
      (∀ setting, VariableReads environment setting) ∧
        result = config.under (environmentLayer environment) := by
  rw [← override_eq_iff, overridden]
  rcases config.override environment with ⟨other, _ | failure⟩ <;> simp

end CheckHarness.Config
