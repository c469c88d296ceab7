/-
# Stages of loading

Loading is a sequence of stages: the defaults, the file, the values in it, the
environment variables, the required members and the check of the settings as a whole,
with one stage for each binding where bindings are gone through. Each stage changes the
settings it finds or ends loading, so that what is known of single stages is known of
loading.
-/

import AgentKit.Proofs.Settings.Layers

namespace AgentKit

/-- What is done in loading, one thing after the other. -/
inductive LoadStage (ι : Type)
  | fallback (binding : SettingBinding ι)
  | file
  | fileValue (binding : SettingBinding ι)
  | environment (binding : SettingBinding ι)
  | required (binding : SettingBinding ι)
  | check

variable {ι : Type} {schema : ι → SettingKind}

namespace Loader

variable {loader : Loader schema} {surroundings : Surroundings}

/-- The stages of loading in their order, and in the order of the bindings where they are
gone through. -/
def stages (loader : Loader schema) : List (LoadStage ι) :=
  loader.bindings.map .fallback ++ .file :: loader.bindings.map .fileValue ++
    loader.bindings.map .environment ++ loader.bindings.map .required ++ [.check]

/-- A required member must not be empty. -/
def demand (binding : SettingBinding ι) (settings : Settings schema) :
    Except LoadFailure (Settings schema) :=
  if binding.required && settings.isEmpty binding.member then
    .error (.returned (.make .validationRequired
      ("config: required field " ++ Text.quoted binding.path ++ " is empty")))
  else .ok settings

/-- What a stage makes of the settings it finds. -/
def runStage [DecidableEq ι] (loader : Loader schema) (surroundings : Surroundings)
    (stage : LoadStage ι) (settings : Settings schema) : Except LoadFailure (Settings schema) :=
  match stage with
  | .fallback binding => applyFallback binding settings
  | .file =>
    if loader.file.isEmpty then .ok settings
    else (readFile loader.file surroundings).map fun _ => settings
  | .fileValue binding =>
    match loader.fileRoot? surroundings with
    | some root => applyJson loader.file root binding settings
    | none => .ok settings
  | .environment binding => loader.applyVariable surroundings binding settings
  | .required binding => demand binding settings
  | .check => (loader.check settings).map fun () => settings

/-- Goes through stages up to the first that fails. -/
def runStages [DecidableEq ι] (loader : Loader schema) (surroundings : Surroundings) :
    List (LoadStage ι) → Settings schema → Loading schema
  | [], settings => ⟨settings, .ok ()⟩
  | stage :: rest, settings =>
    match loader.runStage surroundings stage settings with
    | .ok settings => loader.runStages surroundings rest settings
    | .error failure => ⟨settings, .error failure⟩

variable [DecidableEq ι]

/-! ## Going through stages -/

theorem runStages_append (first second : List (LoadStage ι)) (settings : Settings schema) :
    loader.runStages surroundings (first ++ second) settings =
      (loader.runStages surroundings first settings).andThen
        (loader.runStages surroundings second) := by
  induction first generalizing settings with
  | nil => rfl
  | cons stage rest ih =>
      simp only [List.cons_append, runStages]
      cases loader.runStage surroundings stage settings with
      | ok next => exact ih next
      | error failure => rfl

theorem runStages_map (stage : SettingBinding ι → LoadStage ι)
    (step : SettingBinding ι → Settings schema → Except LoadFailure (Settings schema))
    (same : ∀ binding settings, loader.runStage surroundings (stage binding) settings =
      step binding settings) (bindings : List (SettingBinding ι)) (settings : Settings schema) :
    loader.runStages surroundings (bindings.map stage) settings =
      Loading.inOrder step bindings settings := by
  induction bindings generalizing settings with
  | nil => rfl
  | cons binding rest ih =>
      simp only [List.map_cons, runStages, Loading.inOrder, same]
      cases step binding settings with
      | ok next => exact ih next
      | error failure => rfl

theorem runStages_keep {stages : List (LoadStage ι)} {settings : Settings schema}
    (idle : ∀ stage ∈ stages, loader.runStage surroundings stage settings = .ok settings) :
    loader.runStages surroundings stages settings = ⟨settings, .ok ()⟩ := by
  induction stages with
  | nil => rfl
  | cons stage rest ih =>
      obtain ⟨here, later⟩ := List.forall_mem_cons.mp idle
      simp only [runStages, here]
      exact ih later

/-- The first failing stage gives its failure, and leaves the settings as they were. -/
theorem runStages_eq_error_iff {stages : List (LoadStage ι)} {first last : Settings schema}
    {failure : LoadFailure} :
    loader.runStages surroundings stages first = ⟨last, .error failure⟩ ↔
      ∃ earlier stage later, stages = earlier ++ stage :: later ∧
        loader.runStages surroundings earlier first = ⟨last, .ok ()⟩ ∧
        loader.runStage surroundings stage last = .error failure := by
  constructor
  · induction stages generalizing first with
    | nil =>
        intro failed
        cases failed
    | cons stage rest ih =>
        intro failed
        rw [runStages] at failed
        cases ran : loader.runStage surroundings stage first with
        | ok next =>
            simp only [ran] at failed
            obtain ⟨earlier, failing, later, rfl, passed, fails⟩ := ih failed
            exact ⟨stage :: earlier, failing, later, rfl,
              by simp only [runStages, ran, passed], fails⟩
        | error fault =>
            simp only [ran] at failed
            cases failed
            exact ⟨[], stage, rest, rfl, rfl, ran⟩
  · rintro ⟨earlier, stage, later, rfl, passed, fails⟩
    rw [runStages_append, passed]
    simp only [Loading.andThen, runStages, fails]

theorem fileLayer_eq_runStages (settings : Settings schema) :
    loader.fileLayer surroundings settings =
      loader.runStages surroundings (.file :: loader.bindings.map .fileValue) settings := by
  have skip : loader.fileRoot? surroundings = none →
      loader.runStages surroundings (loader.bindings.map .fileValue) settings =
        ⟨settings, .ok ()⟩ := by
    intro absent
    refine runStages_keep fun stage mem => ?_
    obtain ⟨binding, _, rfl⟩ := List.mem_map.mp mem
    simp only [runStage, absent]
  unfold fileLayer
  simp only [runStages, runStage]
  by_cases unnamed : loader.file.isEmpty
  · simp only [unnamed, if_true]
    exact (skip (by simp [fileRoot?, unnamed])).symm
  · simp only [unnamed]
    cases read : readFile loader.file surroundings with
    | error failure => rfl
    | ok root =>
        have found := fileRoot?_of_readFile unnamed read
        cases root with
        | none => exact (skip found).symm
        | some root =>
            exact (runStages_map .fileValue (applyJson loader.file root)
              (fun binding settings => by simp only [runStage, found]) loader.bindings
              settings).symm

theorem validate_eq_runStages (settings : Settings schema) :
    ⟨settings, loader.validate settings⟩ =
      loader.runStages surroundings (loader.bindings.map .required ++ [.check]) settings := by
  unfold validate
  induction loader.bindings with
  | nil =>
      simp only [List.find?_nil, List.map_nil, List.nil_append, runStages, runStage]
      cases loader.check settings <;> rfl
  | cons binding rest ih =>
      simp only [List.map_cons, List.cons_append, runStages, runStage, demand, List.find?_cons]
      cases lacking : binding.required && settings.isEmpty binding.member with
      | true => rfl
      | false => exact ih

/-- Loading is going through its stages. -/
theorem loadInto_eq_runStages (settings : Settings schema) :
    loader.loadInto surroundings settings =
      loader.runStages surroundings loader.stages settings := by
  have defaults : loader.fallbackLayer =
      loader.runStages surroundings (loader.bindings.map .fallback) :=
    funext fun settings =>
      (runStages_map .fallback applyFallback (fun _ _ => rfl) loader.bindings settings).symm
  have file : loader.fileLayer surroundings =
      loader.runStages surroundings (.file :: loader.bindings.map .fileValue) :=
    funext fun settings => fileLayer_eq_runStages settings
  have environment : loader.variableLayer surroundings =
      loader.runStages surroundings (loader.bindings.map .environment) :=
    funext fun settings =>
      (runStages_map .environment (loader.applyVariable surroundings)
        (fun _ _ => by simp only [runStage]) loader.bindings settings).symm
  have validation : (fun settings => ⟨settings, loader.validate settings⟩) =
      loader.runStages surroundings (loader.bindings.map .required ++ [.check]) :=
    funext fun settings => validate_eq_runStages settings
  rw [loadInto, defaults, file, environment, validation, ← runStages_append, ← runStages_append,
    ← runStages_append, stages, List.append_assoc (_ ++ _ ++ _)]

/-! ## What stages store -/

theorem applyFallback_eq (binding : SettingBinding ι) (settings : Settings schema) :
    applyFallback binding settings =
      (fallbackText? binding (settings binding.member)).elim (.ok settings) fun text =>
        store settings binding.member ((schema binding.member).ofText text)
          ("failed to apply default for field " ++ Text.quoted binding.path) := by
  unfold applyFallback fallbackText? Settings.isEmpty
  cases binding.fallback with
  | none => simp
  | some text =>
      dsimp only
      split <;> rfl

theorem runStage_fileValue (binding : SettingBinding ι) (settings : Settings schema) :
    loader.runStage surroundings (.fileValue binding) settings =
      (loader.fileValue? surroundings binding).elim (.ok settings) fun value =>
        store settings binding.member ((schema binding.member).ofJson value)
          ("failed to set field " ++ Text.quoted binding.path ++ " from file "
            ++ Text.quoted loader.file) := by
  simp only [runStage, fileValue?]
  cases loader.fileRoot? surroundings with
  | none => rfl
  | some root =>
      simp only [applyJson, Option.bind_some]
      cases root.atPath? binding.path with
      | none => rfl
      | some value => cases value <;> rfl

theorem applyVariable_eq (binding : SettingBinding ι) (settings : Settings schema) :
    loader.applyVariable surroundings binding settings =
      (loader.variableText? surroundings binding).elim (.ok settings) fun text =>
        store settings binding.member ((schema binding.member).ofText text)
          ("failed to set field " ++ Text.quoted binding.path ++ " from env var "
            ++ Text.quoted (loader.variableKey binding.variableName)) := by
  unfold applyVariable variableText?
  split
  · rfl
  · dsimp only
    cases surroundings.environmentText? (loader.variableKey binding.variableName) <;>
      simp only [Option.elim]

end Loader

end AgentKit
