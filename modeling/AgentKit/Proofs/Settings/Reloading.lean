/-
# Loading again

Settings that have been loaded can be loaded again from the same places, and stay as they
are. This is not because a second run has nothing to do. A default steps in for a member
that is empty, and a member that was not may have been made so by the file or by the
environment; in the second run such a member is given its default, which nobody has read
before. But then the file or the environment takes it back.

So the default has to be one that can be read, and nothing else is needed.
-/

import AgentKit.Proofs.Settings.Layers

namespace AgentKit

variable {ι : Type} {schema : ι → SettingKind}

/-- The default of a binding can be read, if there is one. -/
def SettingBinding.HasReadableFallback (schema : ι → SettingKind) (binding : SettingBinding ι) :
    Prop :=
  ∀ text, binding.fallback = some text → ∃ value, (schema binding.member).ofText text = .ok value

namespace Settings

/-- Where something can be made of the old value of each bound member, the members can be
filled together. -/
theorem exists_areFilled [DecidableEq ι] (make : MemberRule schema) (first : Settings schema)
    {bindings : List (SettingBinding ι)} (distinct : SettingBinding.AreDistinct bindings)
    (makes : ∀ binding ∈ bindings, ∃ value, make binding (first binding.member) = .ok value) :
    ∃ last, AreFilled make bindings first last := by
  induction bindings generalizing first with
  | nil => exact ⟨first, areFilled_nil_iff.mpr rfl⟩
  | cons binding rest ih =>
      obtain ⟨fresh, distinct⟩ := List.nodup_cons.mp distinct
      have fresh : ∀ other ∈ rest, other.member ≠ binding.member := fun other mem same =>
        fresh (List.mem_map.mpr ⟨other, mem, same⟩)
      obtain ⟨⟨value, made⟩, makes⟩ := List.forall_mem_cons.mp makes
      obtain ⟨last, filled⟩ := ih (first.set binding.member value) distinct (by
        intro other mem
        rw [set_of_ne _ (fresh other mem).symm]
        exact makes other mem)
      have here : last binding.member = value :=
        (filled.unbound binding.member fresh).trans (set_same first binding.member value)
      refine ⟨last, (areFilled_cons_iff fresh).mpr ⟨?_, ?_⟩⟩
      · rw [here, made]
      · rwa [here]

end Settings

namespace Loader

variable {loader : Loader schema} {surroundings : Surroundings} {binding : SettingBinding ι}

/-- The default of a member can be given to it again. -/
theorem fallbackRule_again {before after : (schema binding.member).Value}
    (made : fallbackRule binding before = .ok after) : fallbackRule binding after = .ok after := by
  unfold fallbackRule fallbackText? at made ⊢
  by_cases empty : (schema binding.member).isEmpty before
  · rw [if_pos empty] at made
    cases given : binding.fallback with
    | none => rw [ite_self]
    | some text =>
        rw [given] at made
        split
        · next found =>
            split at found
            · cases found
              exact made
            · cases found
        · rfl
  · rw [if_neg empty] at made
    cases made
    rw [if_neg empty]

/-- A member that has gone through the layers comes out of them again as it is, if its default
can be read. -/
theorem exists_rules_again (readable : binding.HasReadableFallback schema)
    {before afterDefaults afterFile after : (schema binding.member).Value}
    (defaults : fallbackRule binding before = .ok afterDefaults)
    (file : loader.fileRule surroundings binding afterDefaults = .ok afterFile)
    (environment : loader.variableRule surroundings binding afterFile = .ok after) :
    ∃ again afterAgain, fallbackRule binding after = .ok again ∧
      loader.fileRule surroundings binding again = .ok afterAgain ∧
      loader.variableRule surroundings binding afterAgain = .ok after := by
  obtain ⟨again, refilled⟩ : ∃ again, fallbackRule binding after = .ok again := by
    unfold fallbackRule fallbackText?
    split
    · next text found =>
        split at found
        · exact readable text found
        · cases found
    · exact ⟨after, rfl⟩
  unfold fileRule at file ⊢
  unfold variableRule at environment ⊢
  cases set : loader.variableText? surroundings binding with
  | some text =>
      rw [set] at environment
      cases found : loader.fileValue? surroundings binding with
      | some value =>
          rw [found] at file
          exact ⟨again, afterFile, refilled, file, environment⟩
      | none => exact ⟨again, again, refilled, rfl, environment⟩
  | none =>
      rw [set] at environment
      cases environment
      cases found : loader.fileValue? surroundings binding with
      | some value =>
          rw [found] at file
          exact ⟨again, afterFile, refilled, file, rfl⟩
      | none =>
          rw [found] at file
          cases file
          exact ⟨_, _, fallbackRule_again defaults, rfl, rfl⟩

/-- Settings that were loaded with success are loaded again with success, from the same places,
and stay as they are, if the defaults can be read. -/
theorem loaded_settings_stay [DecidableEq ι]
    (distinct : SettingBinding.AreDistinct loader.bindings)
    (readable : ∀ binding ∈ loader.bindings, binding.HasReadableFallback schema)
    {first last : Settings schema}
    (loaded : loader.loadInto surroundings first = ⟨last, .ok ()⟩) :
    loader.loadInto surroundings last = ⟨last, .ok ()⟩ := by
  obtain ⟨_, _, success⟩ := (loadInto_eq_ok_iff distinct).mp loaded
  have again : ∀ binding ∈ loader.bindings, ∃ again afterAgain,
      fallbackRule binding (last binding.member) = .ok again ∧
        loader.fileRule surroundings binding again = .ok afterAgain ∧
        loader.variableRule surroundings binding afterAgain = .ok (last binding.member) :=
    fun binding bound => exists_rules_again (readable binding bound)
      (success.defaults.bound binding bound) (success.file.bound binding bound)
      (success.environment.bound binding bound)
  obtain ⟨withDefaults, defaults⟩ := Settings.exists_areFilled fallbackRule last distinct
    fun binding bound => by
      obtain ⟨value, _, made, -⟩ := again binding bound
      exact ⟨value, made⟩
  have onwards : ∀ binding ∈ loader.bindings, ∃ afterAgain,
      loader.fileRule surroundings binding (withDefaults binding.member) = .ok afterAgain ∧
        loader.variableRule surroundings binding afterAgain = .ok (last binding.member) := by
    intro binding bound
    obtain ⟨value, afterAgain, made, file, environment⟩ := again binding bound
    obtain rfl := Except.ok.inj (made.symm.trans (defaults.bound binding bound))
    exact ⟨afterAgain, file, environment⟩
  obtain ⟨withFile, file⟩ := Settings.exists_areFilled (loader.fileRule surroundings)
    withDefaults distinct fun binding bound => by
      obtain ⟨value, made, -⟩ := onwards binding bound
      exact ⟨value, made⟩
  refine (loadInto_eq_ok_iff distinct).mpr
    ⟨withDefaults, withFile, defaults, success.accepts, file, ⟨?_, ?_⟩, success.complete,
      success.checked⟩
  · intro binding bound
    obtain ⟨value, made, environment⟩ := onwards binding bound
    obtain rfl := Except.ok.inj (made.symm.trans (file.bound binding bound))
    exact environment
  · intro member free
    rw [file.unbound member free, defaults.unbound member free]

end Loader

/-- The environment makes the host empty, so that a second run gives it the default that the
first one had no use for, before the environment makes it empty again. -/
theorem loaded_settings_stay_of_emptiedHost :
    SettingBinding.AreDistinct serviceLoader.bindings ∧
      (∀ binding ∈ serviceLoader.bindings, binding.HasReadableFallback serviceSchema) ∧
      serviceLoader.loadInto serviceSurroundings (serviceSettings "web" 0 [] 250 true) =
        ⟨serviceSettings "" 8080 ["x"] 250 true, .ok ()⟩ ∧
      (serviceLoader.fallbackLayer (serviceSettings "" 8080 ["x"] 250 true)).settings .host =
        "localhost" ∧
      serviceLoader.loadInto serviceSurroundings (serviceSettings "" 8080 ["x"] 250 true) =
        ⟨serviceSettings "" 8080 ["x"] 250 true, .ok ()⟩ := by
  have distinct : SettingBinding.AreDistinct serviceLoader.bindings :=
    (by decide : (serviceLoader.bindings.map SettingBinding.member).Nodup)
  have readable : ∀ binding ∈ serviceLoader.bindings,
      binding.HasReadableFallback serviceSchema := by
    have read : ∀ binding ∈ serviceLoader.bindings, ∀ text ∈ binding.fallback,
        ((serviceSchema binding.member).ofText text).isOk = true := by decide +kernel
    intro binding bound text given
    have isOk := read binding bound text given
    cases result : (serviceSchema binding.member).ofText text with
    | error error =>
        rw [result] at isOk
        cases isOk
    | ok value => exact ⟨value, rfl⟩
  have loaded : serviceLoader.loadInto serviceSurroundings (serviceSettings "web" 0 [] 250 true) =
      ⟨serviceSettings "" 8080 ["x"] 250 true, .ok ()⟩ :=
    Loading.eq_ok_of_forall (by decide +kernel) fun member => by
      cases member <;> decide +kernel
  exact ⟨distinct, readable, loaded, rfl,
    Loader.loaded_settings_stay distinct readable loaded⟩

end AgentKit
