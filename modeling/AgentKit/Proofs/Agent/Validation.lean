/-
# What builders refuse

A builder checks id, name and version of an agent and then its capabilities, one
after the other. What it refuses for is read here off the profile that it would
give to the agent: the first fault, with the error that belongs to it. The fault
of a capability is that it could not have been created.
-/

import AgentKit.Agent.Builder

namespace AgentKit

namespace Capability

/-- A capability has what it needs. -/
def IsComplete (capability : Capability) : Prop :=
  capability.name ≠ "" ∧ capability.version ≠ ""

theorem validate_eq_ok_iff {capability : Capability} :
    capability.validate = .ok () ↔ capability.IsComplete := by
  by_cases name : capability.name = ""
  · simp [validate, IsComplete, name]
  · by_cases version : capability.version = "" <;>
      simp [validate, IsComplete, name, version]

theorem not_isComplete_of_validate {capability : Capability} {error : Error}
    (refused : capability.validate = .error error) : ¬ capability.IsComplete := by
  simp [← validate_eq_ok_iff, refused]

theorem not_isComplete_iff {capability : Capability} :
    ¬ capability.IsComplete ↔ capability.name = "" ∨ capability.version = "" := by
  by_cases name : capability.name = "" <;> simp [IsComplete, name]

theorem code_of_validate {capability : Capability} {error : Error}
    (refused : capability.validate = .error error) : error.code = .validation := by
  unfold validate at refused
  split at refused
  · cases refused
    rfl
  · split at refused
    · cases refused
      rfl
    · cases refused

/-- Creating a capability has the errors of validating it. -/
theorem create_eq_error_iff {capability : Capability} {error : Error} :
    create capability.name capability.version capability.description capability.metadata
        = .error error
      ↔ capability.validate = .error error := by
  change capability.validate.map (fun () => capability) = .error error ↔ _
  cases capability.validate <;> simp [Except.map]

instance (capability : Capability) : Decidable capability.IsComplete :=
  inferInstanceAs (Decidable (_ ∧ _))

/-- Capabilities are refused with the error of the first one that is not complete. -/
theorem copyChecked_eq_error_iff_find? {capabilities : List Capability} {error : Error} :
    copyChecked capabilities = .error error ↔
      ∃ faulty, capabilities.find? (fun capability => ¬ capability.IsComplete) = some faulty ∧
        faulty.validate = .error error := by
  induction capabilities with
  | nil => simp [copyChecked, pure, Except.pure]
  | cons capability capabilities ih =>
      rw [copyChecked_cons, List.find?_cons]
      by_cases complete : capability.IsComplete
      · rw [validate_eq_ok_iff.mpr complete]
        simp only [complete, not_true_eq_false, decide_false, ← ih]
        cases copyChecked capabilities <;> simp [Except.bind, Except.map]
      · cases valid : capability.validate with
        | ok _ => exact absurd (validate_eq_ok_iff.mp valid) complete
        | error fault => simp [Except.bind, complete, valid]

theorem copyChecked_eq_error_iff {capabilities : List Capability} {error : Error} :
    copyChecked capabilities = .error error ↔
      ∃ complete faulty rest, capabilities = complete ++ faulty :: rest ∧
        (∀ capability ∈ complete, capability.IsComplete) ∧ faulty.validate = .error error := by
  rw [copyChecked_eq_error_iff_find?]
  constructor
  · rintro ⟨faulty, found, refused⟩
    obtain ⟨_, complete, rest, order, sound⟩ := List.find?_eq_some_iff_append.mp found
    exact ⟨complete, faulty, rest, order, by simpa using sound, refused⟩
  · rintro ⟨complete, faulty, rest, order, sound, refused⟩
    have incomplete := not_isComplete_of_validate refused
    exact ⟨faulty, List.find?_eq_some_iff_append.mpr
      ⟨by simpa using incomplete, complete, rest, order, by simpa using sound⟩, refused⟩

end Capability

/-- The error of the first fault in a profile, in the order id, name, version and
then the capabilities as they were registered. For a capability it is the error of
creating one like it. -/
inductive Profile.FirstFault {H : Type} (profile : Profile H) : Error → Prop
  | id (missing : profile.id = "") :
      profile.FirstFault (.make .validation "lifecycle: agent id must not be empty")
  | name (id : profile.id ≠ "") (missing : profile.name = "") :
      profile.FirstFault (.make .validation "lifecycle: agent name must not be empty")
  | version (id : profile.id ≠ "") (name : profile.name ≠ "") (missing : profile.version = "") :
      profile.FirstFault (.make .validation "lifecycle: agent version must not be empty")
  | capability (id : profile.id ≠ "") (name : profile.name ≠ "") (version : profile.version ≠ "")
      {complete : List Capability} {faulty : Capability} {rest : List Capability}
      (order : profile.capabilities = complete ++ faulty :: rest)
      (sound : ∀ capability ∈ complete, capability.IsComplete) {error : Error}
      (refused : Capability.create faulty.name faulty.version faulty.description faulty.metadata
        = .error error) :
      profile.FirstFault error

namespace AgentBuilder

variable {H : Type} {builder : AgentBuilder H}

/-- What is built, by the checks that are made before. -/
theorem build_eq :
    builder.build =
      if builder.profile.id = "" then
        .error (.make .validation "lifecycle: agent id must not be empty")
      else if builder.profile.name = "" then
        .error (.make .validation "lifecycle: agent name must not be empty")
      else if builder.profile.version = "" then
        .error (.make .validation "lifecycle: agent version must not be empty")
      else (Capability.copyChecked builder.profile.capabilities).map
        fun capabilities => { profile := { builder.profile with capabilities } } := by
  by_cases id : builder.id = ""
  · simp [build, validate, requireText, profile, id, bind, Except.bind]
  by_cases name : builder.name = ""
  · simp [build, validate, requireText, profile, id, name, bind, Except.bind]
  by_cases version : builder.version = ""
  · simp [build, validate, requireText, profile, id, name, version, bind, Except.bind]
  · simp only [build, validate, requireText, profile, id, name, version, String.isEmpty_iff,
      if_false]
    cases Capability.copyChecked builder.capabilities <;> rfl

/-- Builders refuse for the first fault, and for no other reason. -/
theorem build_eq_error_iff {error : Error} :
    builder.build = .error error ↔ builder.profile.FirstFault error := by
  constructor
  · intro refused
    rw [build_eq] at refused
    split at refused
    next id =>
      cases refused
      exact .id id
    next id =>
      split at refused
      next name =>
        cases refused
        exact .name id name
      next name =>
        split at refused
        next version =>
          cases refused
          exact .version id name version
        next version =>
          cases checked : Capability.copyChecked builder.profile.capabilities with
          | ok _ =>
              rw [checked] at refused
              cases refused
          | error fault =>
              rw [checked] at refused
              cases refused
              obtain ⟨_, _, _, order, sound, invalid⟩ :=
                Capability.copyChecked_eq_error_iff.mp checked
              exact .capability id name version order sound
                (Capability.create_eq_error_iff.mpr invalid)
  · intro fault
    cases fault with
    | id missing => simp only [build_eq, missing, if_true]
    | name id missing => simp only [build_eq, id, missing, if_true, if_false]
    | version id name missing => simp only [build_eq, id, name, missing, if_true, if_false]
    | capability id name version order sound refused =>
        have invalid := Capability.create_eq_error_iff.mp refused
        rw [build_eq, if_neg id, if_neg name, if_neg version,
          Capability.copyChecked_eq_error_iff.mpr ⟨_, _, _, order, sound, invalid⟩]
        rfl

end AgentBuilder

namespace Profile

variable {H : Type} {profile : Profile H}

/-- Something is at fault exactly if a text is missing or a capability is not complete. -/
theorem exists_firstFault_iff :
    (∃ error, profile.FirstFault error) ↔
      profile.id = "" ∨ profile.name = "" ∨ profile.version = "" ∨
        ∃ capability ∈ profile.capabilities, capability.name = "" ∨ capability.version = "" := by
  constructor
  · rintro ⟨error, fault⟩
    cases fault with
    | id missing => exact .inl missing
    | name _ missing => exact .inr (.inl missing)
    | version _ _ missing => exact .inr (.inr (.inl missing))
    | @capability _ _ _ complete faulty rest order _ _ refused =>
        have invalid := Capability.create_eq_error_iff.mp refused
        have incomplete := Capability.not_isComplete_of_validate invalid
        exact .inr (.inr (.inr
          ⟨faulty, by simp [order], Capability.not_isComplete_iff.mp incomplete⟩))
  · intro missing
    by_cases id : profile.id = ""
    · exact ⟨_, .id id⟩
    by_cases name : profile.name = ""
    · exact ⟨_, .name id name⟩
    by_cases version : profile.version = ""
    · exact ⟨_, .version id name version⟩
    obtain ⟨faulty, registered, incomplete⟩ :=
      ((missing.resolve_left id).resolve_left name).resolve_left version
    cases checked : Capability.copyChecked profile.capabilities with
    | ok _ =>
        have valid := (Capability.copyChecked_eq_ok_iff.mp checked).2 faulty registered
        have complete := Capability.validate_eq_ok_iff.mp valid
        exact absurd incomplete (not_or.mpr complete)
    | error error =>
        obtain ⟨_, _, _, order, sound, invalid⟩ := Capability.copyChecked_eq_error_iff.mp checked
        exact ⟨error, .capability id name version order sound
          (Capability.create_eq_error_iff.mpr invalid)⟩

/-- All faults are told as failed validations. -/
theorem FirstFault.code {error : Error} (fault : profile.FirstFault error) :
    error.code = .validation := by
  cases fault with
  | id _ => rfl
  | name _ _ => rfl
  | version _ _ _ => rfl
  | capability _ _ _ _ _ refused =>
      exact Capability.code_of_validate (Capability.create_eq_error_iff.mp refused)

end Profile

end AgentKit
