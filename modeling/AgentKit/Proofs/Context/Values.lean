/-
# What contexts carry

Every context is reached from a background context along one path of derivations. A
derivation puts a value in one slot, or it puts none in any: those that are about
cancelling or about deadlines put none, and neither do those that come without the value
that they are for.

What a context carries in a slot is what was put there last on its path. Whether contexts
have been cancelled and what the clocks say has no part in this, and the path of a context
stays as it is whatever is derived from it.
-/

import AgentKit.Proofs.Context.Ancestry

namespace AgentKit

namespace Binding

variable {slot other : Slot}

theorem valueAt?_same (slot : Slot) (value : Option slot.Value) :
    valueAt? slot ⟨slot, value⟩ = value :=
  dif_pos rfl

theorem valueAt?_eq_none_iff {value : Option other.Value} :
    valueAt? slot ⟨other, value⟩ = none ↔ other ≠ slot ∨ value = none := by
  by_cases same : other = slot
  · subst same
    simp [valueAt?_same]
  · exact iff_of_true (dif_neg same) (.inl same)

end Binding

namespace Derivation

/-- A value is put in a slot. -/
inductive Puts : Derivation → (slot : Slot) → slot.Value → Prop
  | value {slot : Slot} (value : slot.Value) : Puts (withValue slot (some value)) slot value
  | identity (identity : Identity) : Puts (withIdentity (some identity)) .identity identity
  | callerService (serviceName : String) :
      Puts (withCallerService serviceName) .callerService serviceName
  | callChain (chain : CallChain) : Puts (withCallChain chain) .callChain chain

/-- No value is put in a slot: there is none, it is missing, or it is for another slot. -/
inductive IsSilentOn (slot : Slot) : Derivation → Prop
  | cancel : IsSilentOn slot withCancel
  | deadline (deadline : Int) : IsSilentOn slot (withDeadline deadline)
  | timeout (now timeout : Int) : IsSilentOn slot (withTimeout now timeout)
  | missing (other : Slot) : IsSilentOn slot (withValue other none)
  | value {other : Slot} (apart : other ≠ slot) (value : Option other.Value) :
      IsSilentOn slot (withValue other value)
  | missingIdentity : IsSilentOn slot (withIdentity none)
  | identity (apart : .identity ≠ slot) (identity : Option Identity) :
      IsSilentOn slot (withIdentity identity)
  | callerService (apart : .callerService ≠ slot) (serviceName : String) :
      IsSilentOn slot (withCallerService serviceName)
  | callChain (apart : .callChain ≠ slot) (chain : CallChain) :
      IsSilentOn slot (withCallChain chain)

variable {derivation : Derivation} {slot : Slot} {value : slot.Value}

/-- What a derivation puts in a slot, if it does. -/
def valueAt? (derivation : Derivation) (slot : Slot) : Option slot.Value :=
  derivation.binding?.bind (Binding.valueAt? slot)

theorem valueAt?_eq_some_iff :
    derivation.valueAt? slot = some value ↔ derivation.Puts slot value := by
  constructor
  · intro found
    cases derivation <;>
      simp only [valueAt?, binding?, Option.bind_some, Option.bind_none, Binding.valueAt?,
        Option.dite_none_right_eq_some, reduceCtorEq] at found
    case withValue other given =>
      obtain ⟨rfl, rfl⟩ := found
      exact .value value
    case withIdentity given =>
      obtain ⟨rfl, rfl⟩ := found
      exact .identity value
    case withCallerService given =>
      obtain ⟨rfl, same⟩ := found
      cases same
      exact .callerService given
    case withCallChain given =>
      obtain ⟨rfl, same⟩ := found
      cases same
      exact .callChain given
  · intro puts
    cases puts with
    | value value => exact Binding.valueAt?_same slot (some value)
    | identity identity => exact Binding.valueAt?_same .identity (some identity)
    | callerService serviceName => exact Binding.valueAt?_same .callerService (some serviceName)
    | callChain chain => exact Binding.valueAt?_same .callChain (some chain)

theorem valueAt?_eq_none_iff : derivation.valueAt? slot = none ↔ derivation.IsSilentOn slot := by
  constructor
  · intro nothing
    cases derivation with
    | withCancel => exact .cancel
    | withDeadline deadline => exact .deadline deadline
    | withTimeout now timeout => exact .timeout now timeout
    | withValue other given =>
        rcases Binding.valueAt?_eq_none_iff.mp nothing with apart | rfl
        · exact .value apart given
        · exact .missing other
    | withIdentity given =>
        rcases Binding.valueAt?_eq_none_iff.mp nothing with apart | rfl
        · exact .identity apart given
        · exact .missingIdentity
    | withCallerService serviceName =>
        exact .callerService ((Binding.valueAt?_eq_none_iff.mp nothing).resolve_right nofun) _
    | withCallChain chain =>
        exact .callChain ((Binding.valueAt?_eq_none_iff.mp nothing).resolve_right nofun) _
  · intro silent
    cases silent with
    | cancel | deadline | timeout => rfl
    | missing | missingIdentity => exact Binding.valueAt?_eq_none_iff.mpr (.inr rfl)
    | value apart | identity apart | callerService apart | callChain apart =>
        exact Binding.valueAt?_eq_none_iff.mpr (.inl apart)

/-- The value that was last put in a slot along a path of derivations, the first of which
comes first. -/
def IsLastPut (path : List Derivation) (slot : Slot) (value : slot.Value) : Prop :=
  ∃ before derivation after, path = before ++ derivation :: after ∧
    derivation.Puts slot value ∧ ∀ later ∈ after, later.IsSilentOn slot

theorem findSome?_reverse_eq_some_iff {path : List Derivation} :
    path.reverse.findSome? (valueAt? · slot) = some value ↔ IsLastPut path slot value := by
  simp only [List.findSome?_eq_some_iff, valueAt?_eq_some_iff, valueAt?_eq_none_iff]
  constructor
  · rintro ⟨after, derivation, before, whole, puts, silent⟩
    refine ⟨before.reverse, derivation, after.reverse, ?_, puts, by simpa using silent⟩
    rw [← path.reverse_reverse, whole]
    simp
  · rintro ⟨before, derivation, after, rfl, puts, silent⟩
    exact ⟨after.reverse, derivation, before.reverse, by simp, puts, by simpa using silent⟩

theorem findSome?_reverse_eq_none_iff {path : List Derivation} :
    path.reverse.findSome? (valueAt? · slot) = none ↔
      ∀ derivation ∈ path, derivation.IsSilentOn slot := by
  simp only [List.findSome?_eq_none_iff, List.mem_reverse, valueAt?_eq_none_iff]

end Derivation

/-! ## Reading what was put -/

namespace Context

variable {contexts : Contexts} {parent : Context} {derivation : Derivation} {slot : Slot}

theorem value?_eq_or (id : Nat) :
    value? ⟨⟨id, derivation.deadline?, derivation.binding?⟩, parent.lineage⟩ slot =
      (derivation.valueAt? slot).or (parent.value? slot) := by
  rw [value?, lineage, List.findSome?_cons]
  simp only [value?, Derivation.valueAt?]
  cases derivation.binding?.bind (Binding.valueAt? slot) <;> rfl

theorem value?_make :
    (derivation.make contexts parent).1.value? slot =
      (derivation.valueAt? slot).or (parent.value? slot) := by
  rw [derivation.make_eq]
  exact value?_eq_or contexts.made

/-- What is read of a context is what was put in its slots on a path of derivations. -/
structure Follows (context : Context) (path : List Derivation) : Prop where
  value : ∀ (slot : Slot) (value : slot.Value),
    context.value? slot = some value ↔ Derivation.IsLastPut path slot value
  missing : ∀ slot,
    context.value? slot = none ↔ ∀ derivation ∈ path, derivation.IsSilentOn slot
  identity : ∀ identity : Identity,
    context.identity? = some identity ↔ Derivation.IsLastPut path .identity identity
  callerService : ∀ serviceName : String,
    context.callerService? = some serviceName ↔
      Derivation.IsLastPut path .callerService serviceName
  callChain : ∀ chain : CallChain,
    context.callChain? = some chain ↔ Derivation.IsLastPut path .callChain chain
  required : ∀ identity : Identity,
    context.requireIdentity = .ok identity ↔ Derivation.IsLastPut path .identity identity
  unauthenticated : ∀ error : Error,
    context.requireIdentity = .error error ↔
      (∀ derivation ∈ path, derivation.IsSilentOn .identity) ∧
        error = .make .authentication "auth: no identity in context"

theorem requireIdentity_eq_ok_iff {context : Context} {identity : Identity} :
    context.requireIdentity = .ok identity ↔ context.value? .identity = some identity := by
  unfold requireIdentity identity?
  cases context.value? .identity with
  | none => exact iff_of_false nofun nofun
  | some found =>
      exact ⟨fun same => congrArg some (Except.ok.inj same),
        fun same => congrArg Except.ok (Option.some.inj same)⟩

theorem requireIdentity_eq_error_iff {context : Context} {error : Error} :
    context.requireIdentity = .error error ↔
      context.value? .identity = none ∧
        error = .make .authentication "auth: no identity in context" := by
  unfold requireIdentity identity?
  cases context.value? .identity with
  | none => exact ⟨fun same => ⟨rfl, (Except.error.inj same).symm⟩, fun known => known.2 ▸ rfl⟩
  | some found => exact iff_of_false nofun nofun

/-- What is found first on the way back along the path is what was put there last. -/
theorem follows_of_value?_eq {context : Context} {path : List Derivation}
    (reads : ∀ slot, context.value? slot = path.reverse.findSome? (·.valueAt? slot)) :
    context.Follows path := by
  have found : ∀ (slot : Slot) (value : slot.Value),
      context.value? slot = some value ↔ Derivation.IsLastPut path slot value := by
    intro slot value
    rw [reads, Derivation.findSome?_reverse_eq_some_iff]
  have nothing : ∀ slot,
      context.value? slot = none ↔ ∀ derivation ∈ path, derivation.IsSilentOn slot := by
    intro slot
    rw [reads, Derivation.findSome?_reverse_eq_none_iff]
  exact
    { value := found
      missing := nothing
      identity := found .identity
      callerService := found .callerService
      callChain := found .callChain
      required := fun identity => requireIdentity_eq_ok_iff.trans (found .identity identity)
      unauthenticated := fun error =>
        requireIdentity_eq_error_iff.trans (and_congr_left' (nothing .identity)) }

end Context

namespace ContextHistory

/-- The path of derivations on which the context of a handle is reached, from a background
context on. Copying adds nothing to it. -/
inductive IsPath (history : ContextHistory) : Nat → List Derivation → Prop
  | background {place : Nat} {context : Context}
      (held : history.handles[place]? = some ⟨.background, context⟩) : IsPath history place []
  | copy {place source : Nat} {context : Context} {path : List Derivation}
      (held : history.handles[place]? = some ⟨.copy source, context⟩)
      (above : IsPath history source path) : IsPath history place path
  | derived {place parent : Nat} {derivation : Derivation} {context : Context}
      {path : List Derivation}
      (held : history.handles[place]? = some ⟨.derived parent derivation, context⟩)
      (above : IsPath history parent path) : IsPath history place (path ++ [derivation])

variable {history later : ContextHistory} {place : Nat} {context : Context}
  {path other : List Derivation} {slot : Slot}

theorem IsPath.eq (one : history.IsPath place path) (two : history.IsPath place other) :
    path = other := by
  induction one generalizing other with
  | background held =>
      cases two with
      | background => rfl
      | copy held' | derived held' => cases held.symm.trans held'
  | copy held _ ih =>
      cases two with
      | copy held' above =>
          cases held.symm.trans held'
          exact ih above
      | background held' | derived held' => cases held.symm.trans held'
  | derived held _ ih =>
      cases two with
      | derived held' above =>
          cases held.symm.trans held'
          rw [ih above]
      | background held' | copy held' => cases held.symm.trans held'

theorem IsPath.of_after? {action : ContextAction} (isPath : history.IsPath place path)
    (done : history.after? action = some later) : later.IsPath place path := by
  induction isPath with
  | background held => exact .background (getElem?_of_after? done held)
  | copy held _ ih => exact .copy (getElem?_of_after? done held) ih
  | derived held _ ih => exact .derived (getElem?_of_after? done held) ih

theorem LeadsTo.isPath (onwards : history.LeadsTo later) (isPath : history.IsPath place path) :
    later.IsPath place path := by
  induction onwards with
  | refl => exact isPath
  | next _ action done ih => exact ih.of_after? done

namespace IsSound

theorem exists_isPath (sound : history.IsSound) {handle : Handle}
    (held : history.handles[place]? = some handle) : ∃ path, history.IsPath place path := by
  induction place using Nat.strongRecOn generalizing handle with
  | ind place ih =>
      obtain ⟨origin, context⟩ := handle
      have accounts := sound.accounts place _ held
      cases origin with
      | background => exact ⟨[], .background held⟩
      | copy source =>
          obtain ⟨before, known⟩ := accounts
          obtain ⟨_, found, _⟩ := exists_handle known
          obtain ⟨path, above⟩ := ih source before found
          exact ⟨path, .copy held above⟩
      | derived parent derivation =>
          obtain ⟨before, _, _, known, _⟩ := accounts
          obtain ⟨_, found, _⟩ := exists_handle known
          obtain ⟨path, above⟩ := ih parent before found
          exact ⟨path ++ [derivation], .derived held above⟩

/-- A context carries in a slot what is found first on the way back along its path. -/
theorem value?_eq_findSome? (sound : history.IsSound) (isPath : history.IsPath place path)
    (held : history.context? place = some context) :
    context.value? slot = path.reverse.findSome? (·.valueAt? slot) := by
  induction isPath generalizing context with
  | background found =>
      obtain ⟨id, rfl⟩ := sound.accounts _ _ found
      cases (context?_of_handle found).symm.trans held
      rfl
  | copy found _ ih =>
      cases (context?_of_handle found).symm.trans held
      exact ih (sound.accounts _ _ found).2
  | derived found _ ih =>
      obtain ⟨_, id, above, known, rfl⟩ := sound.accounts _ _ found
      cases (context?_of_handle found).symm.trans held
      rw [List.reverse_append, List.reverse_singleton, List.findSome?_append,
        List.findSome?_singleton, ← ih known]
      exact Context.value?_eq_or id

end IsSound

/-- What a new handle reads in a slot is what was put there when it was derived, and if nothing
was, what its parent reads. -/
theorem exists_derived_of_after? {parent : Nat} {derivation : Derivation}
    (done : history.after? (.acquire (.derived parent derivation)) = some later) :
    ∃ above own, history.context? parent = some above ∧
      later.context? history.handles.length = some own ∧
      ∀ slot, own.value? slot = (derivation.valueAt? slot).or (above.value? slot) := by
  obtain ⟨⟨own, contexts⟩, makes, rfl⟩ := Option.map_eq_some_iff.mp done
  obtain ⟨above, known, made⟩ := Option.map_eq_some_iff.mp makes
  have isOwn : (derivation.make history.contexts above).1 = own := congrArg Prod.fst made
  refine ⟨above, own, known, by simp [context?], fun slot => ?_⟩
  rw [← isOwn, Context.value?_make]

/-- A context is reached on one path of derivations, and in each slot it carries the value that
was last put there on the path, or none if every derivation of the path was silent on the slot.
The identity, the calling service and the call chain are what was last put in the slots of their
own, and an identity that is required is missing, which is an authentication error, exactly if
the path is silent on it.

A derivation that is silent on a slot leaves in it what the parent has. No action changes the
path or the values of a handle that is there already, be it that someone derives a context,
makes a copy or cancels; and no clock is read for them. -/
theorem values_follow_the_path (possible : history.IsPossible) :
    (∀ place context, history.context? place = some context →
      ∃ path, history.IsPath place path ∧ (∀ other, history.IsPath place other → other = path) ∧
        context.Follows path) ∧
      (∀ parent derivation after,
        history.after? (.acquire (.derived parent derivation)) = some after →
          ∃ above own, history.context? parent = some above ∧
            after.context? history.handles.length = some own ∧
            ∀ slot, (derivation.IsSilentOn slot → own.value? slot = above.value? slot) ∧
              ∀ value, derivation.Puts slot value → own.value? slot = some value) ∧
      ∀ later place context, history.LeadsTo later → history.context? place = some context →
        later.context? place = some context ∧
          ∀ path, history.IsPath place path → later.IsPath place path := by
  have sound := possible.isSound
  refine ⟨?_, ?_, fun later place context onwards held =>
    ⟨onwards.context? held, fun path => onwards.isPath⟩⟩
  · intro place context held
    obtain ⟨handle, found, _⟩ := exists_handle held
    obtain ⟨path, isPath⟩ := sound.exists_isPath found
    exact ⟨path, isPath, fun other isOther => isOther.eq isPath,
      Context.follows_of_value?_eq fun slot => sound.value?_eq_findSome? isPath held⟩
  · intro parent derivation after done
    obtain ⟨above, own, known, held, reads⟩ := exists_derived_of_after? done
    refine ⟨above, own, known, held, fun slot => ⟨fun silent => ?_, fun value puts => ?_⟩⟩
    · rw [reads, Derivation.valueAt?_eq_none_iff.mpr silent, Option.none_or]
    · rw [reads, Derivation.valueAt?_eq_some_iff.mpr puts, Option.some_or]

end ContextHistory

/-- Who asks for something. -/
def requester : Identity :=
  .makeBasic "user-1" .user .null

/-- A request is authenticated and belongs to a tenant. From then on it gets a deadline, is
copied and cancelled, and is passed on by those who have no tenant and no identity to add. -/
def relayedHistory : ContextHistory :=
  ContextHistory.afterAll {}
    [.acquire .background, .acquire (.derived 0 (.withIdentity (some requester))),
      .acquire (.derived 1 (.withValue (.named "tenant") (some "acme"))),
      .acquire (.derived 2 (.withDeadline 50)), .acquire (.copy 3), .cancel 1,
      .acquire (.derived 4 (.withValue (.named "tenant") none)),
      .acquire (.derived 5 (.withCallerService "billing")),
      .acquire (.derived 6 (.withIdentity none))]

theorem values_follow_the_path_of_relayedHistory :
    relayedHistory.IsPossible ∧ relayedHistory.cancels = [1] ∧
      ∃ context path, relayedHistory.context? 7 = some context ∧ relayedHistory.IsPath 7 path ∧
        context.value? (.named "tenant") = some "acme" ∧
        Derivation.IsLastPut path (.named "tenant") "acme" ∧
        context.requireIdentity = .ok requester ∧
        Derivation.IsLastPut path .identity requester ∧
        context.callChain? = none ∧ ∀ derivation ∈ path, derivation.IsSilentOn .callChain := by
  have possible : relayedHistory.IsPossible := ContextHistory.leadsTo_afterAll _ _
  obtain ⟨path, isPath, _, follows⟩ :=
    (ContextHistory.values_follow_the_path possible).1 7 _ rfl
  exact ⟨possible, rfl, _, path, rfl, isPath, rfl, (follows.value (.named "tenant") "acme").mp rfl,
    rfl, (follows.required requester).mp rfl, rfl, (follows.missing .callChain).mp rfl⟩

end AgentKit
