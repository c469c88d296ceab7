/-
# Whom a cancellation reaches

Cancelling by a handle reaches its context, whichever handle that is held by, and
all that comes from it. It does not matter what was there already: contexts that are
derived later from a cancelled one are cancelled from the first. Nobody else is
reached, neither the contexts that the cancelled one comes from nor those derived
beside it, and no action takes a cancellation back.
-/

import AgentKit.Proofs.Context.Ancestry

namespace AgentKit

namespace ContextHistory

variable {history after later : ContextHistory} {place upper : Nat} {context : Context}

/-- A context is cancelled if and only if a handle that governs it has been used to
cancel. -/
theorem IsSound.isCancelled_iff (sound : history.IsSound)
    (held : history.context? place = some context) :
    history.contexts.isCancelled context ↔
      ∃ upper ∈ history.cancels, history.Governs upper place := by
  simp only [Contexts.isCancelled, List.any_eq_true, List.contains_iff_mem]
  constructor
  · rintro ⟨node, mem, cancelled⟩
    obtain ⟨upper, used, above, heldUpper, same⟩ := sound.mem_cancelled_iff.mp cancelled
    exact ⟨upper, used, (sound.governs_iff heldUpper held).mpr ⟨node, mem, same.symm⟩⟩
  · rintro ⟨upper, used, governs⟩
    obtain ⟨above, heldUpper⟩ := sound.exists_of_mem_cancels used
    obtain ⟨node, mem, same⟩ := (sound.governs_iff heldUpper held).mp governs
    exact ⟨node, mem, sound.mem_cancelled_iff.mpr ⟨upper, used, above, heldUpper, same.symm⟩⟩

theorem IsSound.isCancelled_after_cancel (sound : history.IsSound)
    (done : history.after? (.cancel upper) = some after)
    (held : history.context? place = some context) :
    after.contexts.isCancelled context ↔
      history.contexts.isCancelled context ∨ history.Governs upper place := by
  obtain ⟨above, heldUpper, rfl⟩ := Option.map_eq_some_iff.mp done
  rw [Contexts.isCancelled_cancel, sound.governs_iff heldUpper held]

/-- To cancel twice by one handle is to cancel once. -/
theorem isCancelled_after_again {again : ContextHistory}
    (done : history.after? (.cancel upper) = some after)
    (repeated : after.after? (.cancel upper) = some again) (context : Context) :
    again.contexts.isCancelled context ↔ after.contexts.isCancelled context := by
  obtain ⟨above, heldUpper, rfl⟩ := Option.map_eq_some_iff.mp done
  obtain ⟨other, heldOther, rfl⟩ := Option.map_eq_some_iff.mp repeated
  obtain rfl : above = other := Option.some.inj (heldUpper.symm.trans heldOther)
  simp only [Contexts.isCancelled_cancel, or_assoc, or_self]

/-- What has been cancelled stays so. -/
theorem cancelled_subset_of_after? {action : ContextAction}
    (done : history.after? action = some later) :
    history.contexts.cancelled ⊆ later.contexts.cancelled := by
  cases action with
  | acquire origin =>
      obtain ⟨made, makes, rfl⟩ := Option.map_eq_some_iff.mp done
      exact (make?_cases makes).2.1 ▸ List.Subset.refl _
  | cancel place =>
      obtain ⟨context, _, rfl⟩ := Option.map_eq_some_iff.mp done
      exact List.subset_cons_self _ _

theorem LeadsTo.isCancelled (onwards : history.LeadsTo later)
    (cancelled : history.contexts.isCancelled context) : later.contexts.isCancelled context := by
  have kept : history.contexts.cancelled ⊆ later.contexts.cancelled := by
    induction onwards with
    | refl => exact List.Subset.refl _
    | next _ action done ih => exact List.Subset.trans ih (cancelled_subset_of_after? done)
  simp only [Contexts.isCancelled, List.any_eq_true, List.contains_iff_mem] at cancelled ⊢
  obtain ⟨node, mem, known⟩ := cancelled
  exact ⟨node, mem, kept known⟩

theorem mem_cancels_of_after? {action : ContextAction} (done : history.after? action = some later)
    (used : upper ∈ history.cancels) : upper ∈ later.cancels := by
  cases action with
  | acquire origin =>
      obtain ⟨_, _, rfl⟩ := Option.map_eq_some_iff.mp done
      exact used
  | cancel place =>
      obtain ⟨_, _, rfl⟩ := Option.map_eq_some_iff.mp done
      exact List.mem_cons_of_mem _ used

theorem LeadsTo.mem_cancels (onwards : history.LeadsTo later) (used : upper ∈ history.cancels) :
    upper ∈ later.cancels := by
  induction onwards with
  | refl => exact used
  | next _ action done ih => exact mem_cancels_of_after? done ih

theorem mem_cancels_of_cancel (done : history.after? (.cancel upper) = some after) :
    upper ∈ after.cancels := by
  obtain ⟨_, _, rfl⟩ := Option.map_eq_some_iff.mp done
  exact List.mem_cons_self

/-- A context is cancelled if and only if a handle that governs it has been used to
cancel, be that before or after it was derived. So a cancellation changes the fate of
the contexts that its handle governs, those that come to be later included, and of no
others: not of those it comes from, not of those derived beside it and not of those it
has nothing in common with. Cancelling again changes nothing, and nothing undoes it. -/
theorem isCancelled_iff_cancel_governs (possible : history.IsPossible) :
    (∀ place context, history.context? place = some context →
        (history.contexts.isCancelled context ↔
          ∃ upper ∈ history.cancels, history.Governs upper place)) ∧
      (∀ upper after, history.after? (.cancel upper) = some after →
        (∀ place context, history.context? place = some context →
          (after.contexts.isCancelled context ↔
            history.contexts.isCancelled context ∨ history.Governs upper place)) ∧
        (∀ later place context, after.LeadsTo later → later.context? place = some context →
          later.Governs upper place → later.contexts.isCancelled context) ∧
        ∀ again context, after.after? (.cancel upper) = some again →
          (again.contexts.isCancelled context ↔ after.contexts.isCancelled context)) ∧
      (∀ upper place context, history.context? place = some context →
        history.Governs place upper → ¬ history.AreCopies place upper →
          ¬ history.Governs upper place) ∧
      (∀ upper place parent other, history.IsDerivedFrom upper parent →
        history.IsDerivedFrom place other → history.AreCopies parent other → upper ≠ place →
          ¬ history.Governs upper place) ∧
      (∀ upper place, (¬ ∃ root, history.Governs root upper ∧ history.Governs root place) →
        ¬ history.Governs upper place) ∧
      ∀ later context, history.LeadsTo later → history.contexts.isCancelled context →
        later.contexts.isCancelled context := by
  have sound := possible.isSound
  refine ⟨fun _ _ => sound.isCancelled_iff, ?_, ?_, ?_, ?_, fun _ _ => LeadsTo.isCancelled⟩
  · intro upper after done
    refine ⟨fun _ _ => sound.isCancelled_after_cancel done, ?_, ?_⟩
    · intro later place context onwards held governs
      have soundLater := (sound.after? done).leadsTo onwards
      exact (soundLater.isCancelled_iff held).mpr
        ⟨upper, onwards.mem_cancels (mem_cancels_of_cancel done), governs⟩
    · intro again context repeated
      exact isCancelled_after_again done repeated context
  · intro upper place context held above apart governs
    exact apart (sound.areCopies_of_governs above governs held)
  · intro upper place parent other derived derived' copies apart
    exact sound.not_governs_sibling derived derived' copies apart
  · intro upper place strangers governs
    exact strangers ⟨upper, .refl, governs⟩

end ContextHistory

/-- A request is given up by a copy of its context. One of the contexts below it has been
derived before and one is derived after, and another request is under way. -/
def abandonedHistory : ContextHistory :=
  ContextHistory.afterAll {}
    [.acquire .background, .acquire (.derived 0 .withCancel),
      .acquire (.derived 1 (.withDeadline 50)), .acquire (.copy 1), .cancel 3,
      .acquire (.derived 2 (.withCallerService "billing")),
      .acquire (.derived 0 (.withTimeout 7 100))]

theorem isCancelled_iff_cancel_governs_of_abandonedHistory :
    abandonedHistory.IsPossible ∧ abandonedHistory.cancels = [3] ∧
      abandonedHistory.handles.map
          (fun handle => abandonedHistory.contexts.isCancelled handle.context) =
        [false, true, true, true, true, false] ∧
      abandonedHistory.Governs 3 4 ∧ ¬ abandonedHistory.Governs 3 5 := by
  have possible : abandonedHistory.IsPossible := ContextHistory.leadsTo_afterAll _ _
  have reached := (ContextHistory.isCancelled_iff_cancel_governs possible).1
  refine ⟨possible, rfl, rfl, ?_, fun governs => ?_⟩
  · obtain ⟨upper, used, governs⟩ := (reached 4 _ rfl).mp rfl
    exact List.mem_singleton.mp used ▸ governs
  · cases (reached 5 _ rfl).mpr ⟨3, List.mem_cons_self, governs⟩

end AgentKit
