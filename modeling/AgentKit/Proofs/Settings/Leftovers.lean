/-
# What a failed load leaves behind

Loading works on the settings in place and takes nothing back. If it fails, the settings are
those that the stages before the failing one have come to: each member has the value that was
last stored in it, from its default, the file or the environment, or else the value it had.
The stage that fails stores nothing, and neither do the checks at the end. So the settings
are as they were only if what has been stored comes to what was there.
-/

import Mathlib.Data.List.Induction
import AgentKit.Proofs.Settings.Failures

namespace AgentKit

variable {ι : Type} {schema : ι → SettingKind}

namespace Loader

/-- When a stage has a value to store in a member of the settings it finds. -/
inductive Stores (loader : Loader schema) (surroundings : Surroundings)
    (settings : Settings schema) : LoadStage ι → (member : ι) → (schema member).Value → Prop
  | /-- The member is empty and has a default. -/
    fallback {binding : SettingBinding ι} {text : String} {value : (schema binding.member).Value}
      (given : binding.fallback = some text) (empty : settings.isEmpty binding.member)
      (read : (schema binding.member).ofText text = .ok value) :
      Stores loader surroundings settings (.fallback binding) binding.member value
  | /-- The file has a value for the member. -/
    fileValue {binding : SettingBinding ι} {source : Json} {value : (schema binding.member).Value}
      (found : loader.fileValue? surroundings binding = some source)
      (read : (schema binding.member).ofJson source = .ok value) :
      Stores loader surroundings settings (.fileValue binding) binding.member value
  | /-- The environment variable of the member is set. -/
    environment {binding : SettingBinding ι} {text : String}
      {value : (schema binding.member).Value}
      (set : loader.variableText? surroundings binding = some text)
      (read : (schema binding.member).ofText text = .ok value) :
      Stores loader surroundings settings (.environment binding) binding.member value

variable {loader : Loader schema} {surroundings : Surroundings} {first last : Settings schema}
  {stages : List (LoadStage ι)} {stage : LoadStage ι} {member : ι}

/-- Only bound members have values stored in them. -/
theorem Stores.exists_binding {settings : Settings schema} {value : (schema member).Value}
    (stores : loader.Stores surroundings settings stage member value)
    (known : stage ∈ loader.stages) : ∃ binding ∈ loader.bindings, binding.member = member := by
  cases stores <;> simp [stages] at known <;> exact ⟨_, known, rfl⟩

variable [DecidableEq ι]

/-- A place that has something for a member gives it a new value, and one that has nothing
leaves the settings alone. -/
theorem elim_store_eq_ok_iff {α : Type} {place : Option α} {settings next : Settings schema}
    {read : α → Except Error (schema member).Value} {message : String} :
    (place.elim (.ok settings) fun found => store settings member (read found) message) =
        .ok next ↔
      (∃ found value, place = some found ∧ read found = .ok value ∧
        settings.set member value = next) ∨ place = none ∧ settings = next := by
  cases place with
  | none => simp
  | some found => cases value : read found <;> simp [store, value]

/-- A stage that succeeds stores a value, or leaves the settings alone. -/
theorem runStage_cases {settings next : Settings schema}
    (done : loader.runStage surroundings stage settings = .ok next) :
    (∃ member value, loader.Stores surroundings settings stage member value ∧
        settings.set member value = next) ∨ settings = next := by
  cases stage with
  | fallback binding =>
      rw [runStage, applyFallback_eq, elim_store_eq_ok_iff] at done
      rcases done with ⟨text, value, given, read, stored⟩ | ⟨-, kept⟩
      · obtain ⟨empty, given⟩ := Option.ite_none_right_eq_some.mp given
        exact .inl ⟨_, value, .fallback given empty read, stored⟩
      · exact .inr kept
  | file =>
      simp only [runStage] at done
      split at done
      · exact .inr (Except.ok.inj done)
      · cases read : readFile loader.file surroundings <;> rw [read] at done
        · cases done
        · exact .inr (Except.ok.inj done)
  | fileValue binding =>
      rw [runStage_fileValue, elim_store_eq_ok_iff] at done
      rcases done with ⟨source, value, found, read, stored⟩ | ⟨-, kept⟩
      · exact .inl ⟨_, value, .fileValue found read, stored⟩
      · exact .inr kept
  | environment binding =>
      rw [runStage, applyVariable_eq, elim_store_eq_ok_iff] at done
      rcases done with ⟨text, value, set, read, stored⟩ | ⟨-, kept⟩
      · exact .inl ⟨_, value, .environment set read, stored⟩
      · exact .inr kept
  | required binding =>
      simp only [runStage, demand] at done
      split at done
      · cases done
      · exact .inr (Except.ok.inj done)
  | check =>
      simp only [runStage] at done
      cases checked : loader.check settings <;> rw [checked] at done
      · cases done
      · exact .inr (Except.ok.inj done)

theorem Stores.runStage_eq {settings : Settings schema} {value : (schema member).Value}
    (stores : loader.Stores surroundings settings stage member value) :
    loader.runStage surroundings stage settings = .ok (settings.set member value) := by
  cases stores with
  | fallback given empty read =>
      rw [runStage, applyFallback_eq, elim_store_eq_ok_iff]
      exact .inl ⟨_, _, (if_pos empty).trans given, read, rfl⟩
  | fileValue found read =>
      rw [runStage_fileValue, elim_store_eq_ok_iff]
      exact .inl ⟨_, _, found, read, rfl⟩
  | environment set read =>
      rw [runStage, applyVariable_eq, elim_store_eq_ok_iff]
      exact .inl ⟨_, _, set, read, rfl⟩

/-- A stage that has nothing to store in a member leaves it alone. -/
theorem runStage_of_silent {settings next : Settings schema}
    (done : loader.runStage surroundings stage settings = .ok next)
    (silent : ∀ value, ¬ loader.Stores surroundings settings stage member value) :
    next member = settings member := by
  rcases runStage_cases done with ⟨other, value, stores, rfl⟩ | rfl
  · refine settings.set_of_ne ?_ value
    rintro rfl
    exact silent value stores
  · rfl

theorem runStages_singleton_eq_ok_iff {settings next : Settings schema} :
    loader.runStages surroundings [stage] settings = ⟨next, .ok ()⟩ ↔
      loader.runStage surroundings stage settings = .ok next := by
  simp only [runStages]
  cases loader.runStage surroundings stage settings <;> simp

/-- The value that was last stored in a member while stages were gone through. -/
inductive LastStored (loader : Loader schema) (surroundings : Surroundings)
    (first : Settings schema) : List (LoadStage ι) → (member : ι) → (schema member).Value → Prop
  | /-- It was stored by the last of the stages. -/
    now {stages : List (LoadStage ι)} {stage : LoadStage ι} {settings : Settings schema}
      {member : ι} {value : (schema member).Value}
      (reached : loader.runStages surroundings stages first = ⟨settings, .ok ()⟩)
      (stores : loader.Stores surroundings settings stage member value) :
      LastStored loader surroundings first (stages ++ [stage]) member value
  | /-- It was stored before, and the last of the stages had nothing to store in the member. -/
    before {stages : List (LoadStage ι)} {stage : LoadStage ι} {settings : Settings schema}
      {member : ι} {value : (schema member).Value}
      (stored : LastStored loader surroundings first stages member value)
      (reached : loader.runStages surroundings stages first = ⟨settings, .ok ()⟩)
      (silent : ∀ other, ¬ loader.Stores surroundings settings stage member other) :
      LastStored loader surroundings first (stages ++ [stage]) member value

theorem LastStored.exists_binding {value : (schema member).Value}
    (stored : loader.LastStored surroundings first stages member value)
    (known : ∀ stage ∈ stages, stage ∈ loader.stages) :
    ∃ binding ∈ loader.bindings, binding.member = member := by
  induction stored with
  | now reached stores => exact stores.exists_binding (known _ (by simp))
  | before stored reached silent ih => exact ih fun stage mem => known stage (by simp [mem])

theorem not_lastStored_nil {value : (schema member).Value} :
    ¬ loader.LastStored surroundings first [] member value := by
  intro stored
  generalize none : ([] : List (LoadStage ι)) = all at stored
  cases stored <;> simp at none

theorem lastStored_concat_iff {settings : Settings schema} {value : (schema member).Value}
    (reached : loader.runStages surroundings stages first = ⟨settings, .ok ()⟩) :
    loader.LastStored surroundings first (stages ++ [stage]) member value ↔
      loader.Stores surroundings settings stage member value ∨
        loader.LastStored surroundings first stages member value ∧
          ∀ other, ¬ loader.Stores surroundings settings stage member other := by
  constructor
  · intro stored
    generalize whole : stages ++ [stage] = all at stored
    cases stored with
    | now reached' stores =>
        obtain ⟨rfl, same⟩ := List.append_inj' whole rfl
        cases same
        cases reached.symm.trans reached'
        exact .inl stores
    | before stored reached' silent =>
        obtain ⟨rfl, same⟩ := List.append_inj' whole rfl
        cases same
        cases reached.symm.trans reached'
        exact .inr ⟨stored, silent⟩
  · rintro (stores | ⟨stored, silent⟩)
    · exact .now reached stores
    · exact .before stored reached silent

/-- Stages that have been gone through leave in each member what was last stored in it, or else
what it had. -/
theorem settings_of_runStages
    (passed : loader.runStages surroundings stages first = ⟨last, .ok ()⟩) (member : ι) :
    (∀ value, loader.LastStored surroundings first stages member value → last member = value) ∧
      ((∀ value, ¬ loader.LastStored surroundings first stages member value) →
        last member = first member) := by
  induction stages using List.reverseRecOn generalizing last with
  | nil =>
      cases passed
      exact ⟨fun value stored => absurd stored not_lastStored_nil, fun _ => rfl⟩
  | append_singleton stages stage ih =>
      rw [runStages_append] at passed
      obtain ⟨middle, reached, passed⟩ := Loading.andThen_eq_ok_iff.mp passed
      have ran := runStages_singleton_eq_ok_iff.mp passed
      obtain ⟨stored, untouched⟩ := ih reached
      simp only [lastStored_concat_iff reached, not_or, not_and]
      constructor
      · rintro value (stores | ⟨earlier, silent⟩)
        · cases ran.symm.trans stores.runStage_eq
          exact middle.set_same member value
        · exact (runStage_of_silent ran silent).trans (stored value earlier)
      · intro none
        have silent := fun value => (none value).1
        exact (runStage_of_silent ran silent).trans
          (untouched fun value earlier => (none value).2 earlier silent)

/-- A load that fails ends at its first failing stage, which with all that comes after it leaves
no trace. What the stages before it have stored stays: a member has the value that was last
stored in it, if there is one, and is as it was if there is none, as it always is if it is not
bound. So the settings are as they were if and only if, wherever something was stored, the last
of it is what was there. -/
theorem failed_loading_keeps_what_was_stored {failure : LoadFailure}
    (failed : loader.loadInto surroundings first = ⟨last, .error failure⟩) :
    (∃ earlier stage later, loader.stages = earlier ++ stage :: later ∧
        loader.runStages surroundings earlier first = ⟨last, .ok ()⟩ ∧
        loader.Fails surroundings last stage failure ∧
        (∀ member value, loader.LastStored surroundings first earlier member value →
          last member = value) ∧
        (∀ member, (∀ value, ¬ loader.LastStored surroundings first earlier member value) →
          last member = first member) ∧
        (last = first ↔ ∀ member value,
          loader.LastStored surroundings first earlier member value → value = first member)) ∧
      ∀ member, (∀ binding ∈ loader.bindings, binding.member ≠ member) →
        last member = first member := by
  obtain ⟨earlier, stage, later, whole, passed, fails⟩ := loadInto_eq_error_iff.mp failed
  have known : ∀ stage ∈ earlier, stage ∈ loader.stages := fun stage mem => by
    rw [whole]
    exact List.mem_append_left _ mem
  have stored := fun member => (settings_of_runStages passed member).1
  have untouched := fun member => (settings_of_runStages passed member).2
  refine ⟨⟨earlier, stage, later, whole, passed, fails, stored, untouched, ?_, ?_⟩, ?_⟩
  · rintro rfl member value isStored
    exact (stored member value isStored).symm
  · intro restored
    funext member
    by_cases isStored : ∃ value, loader.LastStored surroundings first earlier member value
    · obtain ⟨value, isStored⟩ := isStored
      exact (stored member value isStored).trans (restored member value isStored)
    · exact untouched member (not_exists.mp isStored)
  · intro member free
    refine untouched member fun value isStored => ?_
    obtain ⟨binding, bound, same⟩ := isStored.exists_binding known
    exact free binding bound same

end Loader

/-- A loader with a file for the host and a variable for the port. -/
def relocatingLoader : Loader serviceSchema where
  bindings :=
    [{ member := .host, path := "host" },
      { member := .port, path := "port", variableName := "PORT" }]
  file := "service.json"

/-- The file has a new host, but the variable is no port. -/
def relocatingSurroundings : Surroundings :=
  .ofFile [("PORT", "eighty")] "service.json" "\x7b\"host\":\"new.internal\"\x7d"
    (.obj [("host", .str "new.internal")])

/-- The settings of a service that is up. -/
def establishedSettings : Settings serviceSchema :=
  serviceSettings "old.internal" 9000 [] 0 false

theorem exists_error_of_relocation :
    ∃ error, relocatingLoader.loadInto relocatingSurroundings establishedSettings =
      ⟨serviceSettings "new.internal" 9000 [] 0 false, .error (.returned error)⟩ :=
  Loading.exists_eq_returned_of_forall (by decide +kernel) fun member => by
    cases member <;> decide +kernel

theorem relocated_ne_established :
    serviceSettings "new.internal" 9000 [] 0 false ≠ establishedSettings := by
  intro same
  have host : "new.internal" = "old.internal" := congrFun same .host
  exact absurd host (by decide)

/-- Loading fails for the port, and the host has changed. -/
theorem failed_loading_changes_settings :
    ∃ last error, relocatingLoader.loadInto relocatingSurroundings establishedSettings =
      ⟨last, .error (.returned error)⟩ ∧ last ≠ establishedSettings := by
  obtain ⟨error, failed⟩ := exists_error_of_relocation
  exact ⟨_, error, failed, relocated_ne_established⟩

/-- What was stored before the failing stage, and differs from what was there, is the host. -/
theorem failed_loading_keeps_what_was_stored_of_relocation :
    ∃ error, relocatingLoader.loadInto relocatingSurroundings establishedSettings =
        ⟨serviceSettings "new.internal" 9000 [] 0 false, .error (.returned error)⟩ ∧
      ∃ earlier stage later, relocatingLoader.stages = earlier ++ stage :: later ∧
        relocatingLoader.Fails relocatingSurroundings
          (serviceSettings "new.internal" 9000 [] 0 false) stage (.returned error) ∧
        relocatingLoader.LastStored relocatingSurroundings establishedSettings earlier .host
          "new.internal" := by
  obtain ⟨error, failed⟩ := exists_error_of_relocation
  obtain ⟨⟨earlier, stage, later, whole, -, fails, stored, untouched, -⟩, -⟩ :=
    Loader.failed_loading_keeps_what_was_stored failed
  refine ⟨error, failed, earlier, stage, later, whole, fails, ?_⟩
  by_cases hosted : ∃ value, relocatingLoader.LastStored relocatingSurroundings
      establishedSettings earlier .host value
  · obtain ⟨value, hosted⟩ := hosted
    cases stored .host value hosted
    exact hosted
  · have kept : "new.internal" = "old.internal" := untouched .host (not_exists.mp hosted)
    exact absurd kept (by decide)

end AgentKit
