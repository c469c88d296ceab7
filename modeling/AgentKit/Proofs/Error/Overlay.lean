/-
# Details laid over details

Adding details lays them over those an error has: under a key that both have, the added
one counts. Storing details one by one is the same as laying all of them over at once, and
laying over twice is the same as laying over what the two make together. So only what is
found under the keys of the added details counts, not how they are ordered or how many
steps they come in.

This holds of every error, since one whose details take no keys refuses as soon as there
is something to add, in one step or in several. What such an error does not refuse are
additions of nothing: an object without fields, or no object at all.
-/

import AgentKit.Error.Details
import AgentKit.Proofs.Json.FieldOrder

namespace AgentKit

namespace Json

variable {json : Json} {fields : List (String × Json)}

/-- Takes keys as an object does; null is an object without fields. -/
def IsExtensible (json : Json) : Prop :=
  json.isObject ∨ json.isNull

/-- The fields, if there are any, stand in the order of their keys. -/
def IsOrdered : Json → Prop
  | obj fields => Fields.IsOrdered fields
  | _ => True

/-- An object with at least one field. -/
def HasFields (json : Json) : Prop :=
  ∃ field fields, json = .obj (field :: fields)

/-- An object that is made of fields has them in order. -/
theorem isOrdered_object (fields : List (String × Json)) : (object fields).IsOrdered :=
  Fields.isOrdered_nil.merge fields

theorem hasFields_obj_iff : (obj fields).HasFields ↔ fields ≠ [] := by
  cases fields <;> simp [HasFields]

theorem isExtensible_iff : json.IsExtensible ↔ ∃ fields, json.extensibleFields = .ok fields := by
  cases json <;> simp [IsExtensible, isObject, isNull, extensibleFields]

theorem extensibleFields_eq_error (closed : ¬ json.IsExtensible) :
    json.extensibleFields = .error .shape := by
  cases json <;> simp_all [IsExtensible, isObject, isNull, extensibleFields]

theorem get?_of_extensibleFields (opened : json.extensibleFields = .ok fields) (key : String) :
    json.get? key = Fields.find? key fields := by
  cases json <;> cases opened <;> rfl

theorem IsOrdered.of_extensibleFields (ordered : json.IsOrdered)
    (opened : json.extensibleFields = .ok fields) : Fields.IsOrdered fields := by
  cases json with
  | obj inner => cases opened; exact ordered
  | null => cases opened; exact Fields.isOrdered_nil
  | _ => cases opened

end Json

namespace Error

variable {error : Error} {fields extra : List (String × Json)}

/-! ## Replacing details -/

@[simp]
theorem code_setDetails (error : Error) (details : Json) :
    (error.setDetails details).code = error.code := by
  cases error <;> rfl

@[simp]
theorem message_setDetails (error : Error) (details : Json) :
    (error.setDetails details).message = error.message := by
  cases error <;> rfl

@[simp]
theorem cause?_setDetails (error : Error) (details : Json) :
    (error.setDetails details).cause? = error.cause? := by
  cases error <;> rfl

@[simp]
theorem setDetails_setDetails (error : Error) (details details' : Json) :
    (error.setDetails details).setDetails details' = error.setDetails details' := by
  cases error <;> rfl

/-! ## Adding details -/

/-- The error `merged` is `error` with the fields laid over its details, and nothing else
changed. -/
structure IsOverlay (merged error : Error) (extra : List (String × Json)) : Prop where
  code : merged.code = error.code
  message : merged.message = error.message
  cause : merged.cause? = error.cause?
  extensible : merged.details.IsExtensible
  ordered : merged.details.IsOrdered
  detail : ∀ key, merged.details.get? key = (Fields.find? key extra).or (error.details.get? key)

theorem withDetails_of_ne_nil (opened : error.details.extensibleFields = .ok fields)
    (more : extra ≠ []) :
    error.withDetails (.obj extra) = .ok (error.setDetails (.obj (Fields.merge fields extra))) := by
  cases extra with
  | nil => exact absurd rfl more
  | cons field rest =>
      rw [withDetails, opened]
      rfl

/-- Where the details are an object, it makes no difference if there is nothing to add. -/
theorem withDetails_setDetails (error : Error) (fields extra : List (String × Json)) :
    (error.setDetails (.obj fields)).withDetails (.obj extra) =
      .ok (error.setDetails (.obj (Fields.merge fields extra))) := by
  cases extra with
  | nil => rfl
  | cons field rest =>
      have opened : (error.setDetails (.obj fields)).details.extensibleFields = .ok fields := by
        rw [details_setDetails]
        rfl
      rw [withDetails_of_ne_nil opened (List.cons_ne_nil field rest), setDetails_setDetails]

theorem withDetails_of_hasFields (closed : ¬ error.details.IsExtensible) {json : Json}
    (more : json.HasFields) : error.withDetails json = .error .shape := by
  obtain ⟨field, rest, rfl⟩ := more
  rw [withDetails, Json.extensibleFields_eq_error closed]
  rfl

theorem withDetails_of_not_hasFields (error : Error) {json : Json} (nothing : ¬ json.HasFields) :
    error.withDetails json = .ok error := by
  cases json with
  | obj fields =>
      cases fields with
      | nil => rfl
      | cons field rest => exact absurd ⟨field, rest, rfl⟩ nothing
  | _ => rfl

/-- One detail is added as an object with one field. -/
theorem withDetail_eq (error : Error) (key : String) (value : Json) :
    error.withDetail key value = error.withDetails (.obj [(key, value)]) :=
  rfl

/-- An error that takes further details has them laid over its own. -/
theorem exists_overlay (extensible : error.details.IsExtensible)
    (ordered : error.details.IsOrdered) (extra : List (String × Json)) :
    ∃ merged, error.withDetails (.obj extra) = .ok merged ∧ merged.IsOverlay error extra := by
  obtain ⟨fields, opened⟩ := Json.isExtensible_iff.mp extensible
  by_cases nothing : extra = []
  · subst nothing
    exact ⟨error, rfl, rfl, rfl, rfl, extensible, ordered, fun key => rfl⟩
  · refine ⟨_, withDetails_of_ne_nil opened nothing, ?_⟩
    have details := error.details_setDetails (.obj (Fields.merge fields extra))
    exact {
      code := code_setDetails ..
      message := message_setDetails ..
      cause := cause?_setDetails ..
      extensible := by
        rw [details]
        exact .inl rfl
      ordered := by
        rw [details]
        exact (ordered.of_extensibleFields opened).merge extra
      detail := fun key => by
        rw [details, Json.get?_of_extensibleFields opened]
        exact Fields.find?_merge key fields extra }

/-- Laying over twice is laying over all at once, with the later fields first. -/
theorem withDetails_bind_withDetails (error : Error) (extra more : List (String × Json)) :
    (error.withDetails (.obj extra) >>= fun merged => merged.withDetails (.obj more)) =
      error.withDetails (.obj (more ++ extra)) := by
  by_cases nothing : extra = []
  · subst nothing
    rw [List.append_nil]
    rfl
  · have together : more ++ extra ≠ [] := List.append_ne_nil_of_right_ne_nil more nothing
    by_cases extensible : error.details.IsExtensible
    · obtain ⟨fields, opened⟩ := Json.isExtensible_iff.mp extensible
      rw [withDetails_of_ne_nil opened nothing, withDetails_of_ne_nil opened together,
        Fields.merge_append]
      exact error.withDetails_setDetails (Fields.merge fields extra) more
    · rw [withDetails_of_hasFields extensible (Json.hasFields_obj_iff.mpr nothing),
        withDetails_of_hasFields extensible (Json.hasFields_obj_iff.mpr together)]
      rfl

/-- Only what is found under the keys of the added details counts. -/
theorem withDetails_congr (ordered : error.details.IsOrdered) {other : List (String × Json)}
    (agree : ∀ key, Fields.find? key extra = Fields.find? key other) :
    error.withDetails (.obj extra) = error.withDetails (.obj other) := by
  by_cases nothing : extra = []
  · subst nothing
    rw [Fields.eq_nil_of_find? fun key => (agree key).symm]
  · have something : other ≠ [] := by
      rintro rfl
      exact nothing (Fields.eq_nil_of_find? agree)
    by_cases extensible : error.details.IsExtensible
    · obtain ⟨fields, opened⟩ := Json.isExtensible_iff.mp extensible
      have rising := ordered.of_extensibleFields opened
      have same : Fields.merge fields extra = Fields.merge fields other := by
        apply (rising.merge extra).ext (rising.merge other)
        intro key
        rw [Fields.find?_merge, Fields.find?_merge, agree key]
      rw [withDetails_of_ne_nil opened nothing, withDetails_of_ne_nil opened something, same]
    · rw [withDetails_of_hasFields extensible (Json.hasFields_obj_iff.mpr nothing),
        withDetails_of_hasFields extensible (Json.hasFields_obj_iff.mpr something)]

/-- Storing details one by one is laying all of them over, with the last one first. -/
theorem foldlM_withDetail (error : Error) (steps : List (String × Json)) :
    steps.foldlM (fun error step => error.withDetail step.1 step.2) error =
      error.withDetails (.obj steps.reverse) := by
  induction steps generalizing error with
  | nil => rfl
  | cons step steps ih =>
      rw [List.foldlM_cons, List.reverse_cons, ← withDetails_bind_withDetails]
      exact congrArg _ (funext ih)

/-- Adding an object's fields lays them over the details of an error: under each key the added
detail counts if there is one, and nothing but the details changes. It makes no difference
whether the fields are stored one by one, in any order, or at once, nor whether two objects
are added one after the other, or an object that has what the two make together. What is no
object adds nothing. Details that are neither an object nor null take no keys: storing one
fails, and adding fails exactly if there is something to add. -/
theorem details_are_laid_over (error : Error) (ordered : error.details.IsOrdered)
    {extra : List (String × Json)} (distinct : (extra.map Prod.fst).Nodup) :
    (error.details.IsExtensible →
      ∃ merged, error.withDetails (.obj extra) = .ok merged ∧ merged.IsOverlay error extra) ∧
    (∀ steps : List (String × Json), steps.Perm extra →
      steps.foldlM (fun error step => error.withDetail step.1 step.2) error =
        error.withDetails (.obj extra)) ∧
    (∀ more together : List (String × Json),
      (∀ key, Fields.find? key together = (Fields.find? key more).or (Fields.find? key extra)) →
      (error.withDetails (.obj extra) >>= fun merged => merged.withDetails (.obj more)) =
        error.withDetails (.obj together)) ∧
    (∀ json : Json, ¬ json.isObject → error.withDetails json = .ok error) ∧
    (¬ error.details.IsExtensible →
      (∀ key value, error.withDetail key value = .error .shape) ∧
      ∀ json : Json, (json.HasFields → error.withDetails json = .error .shape) ∧
        (¬ json.HasFields → error.withDetails json = .ok error)) := by
  refine ⟨fun extensible => exists_overlay extensible ordered extra, ?_, ?_, ?_, ?_⟩
  · intro steps perm
    have reversed : steps.reverse.Perm extra := steps.reverse_perm.trans perm
    rw [foldlM_withDetail]
    exact withDetails_congr ordered (Fields.find?_of_perm distinct reversed)
  · intro more together agree
    rw [withDetails_bind_withDetails]
    apply withDetails_congr ordered
    intro key
    rw [Fields.find?_append, agree key]
  · intro json other
    apply error.withDetails_of_not_hasFields
    rintro ⟨field, fields, rfl⟩
    exact other rfl
  · intro closed
    refine ⟨fun key value => ?_, fun json => ⟨?_, ?_⟩⟩
    · rw [withDetail_eq]
      exact withDetails_of_hasFields closed ⟨_, _, rfl⟩
    · exact withDetails_of_hasFields closed
    · exact error.withDetails_of_not_hasFields

/-- A refusal with a cause that tells the account and the number of attempts. -/
def refusedTransfer (details : Json) : Error :=
  .wrap ⟨.conflict, "transfer refused", details⟩ (.make .timeout "no answer")

/-- A later count takes the place of the earlier one, in whichever order the details come. If
the details are a list, there is no place for it. -/
theorem details_are_laid_over_of_refusedTransfer :
    let error := refusedTransfer (.object [("attempts", .int 2), ("account", .str "A-17")])
    let listed := refusedTransfer (.arr [.int 2])
    let extra : List (String × Json) := [("attempts", .int 3), ("limits", .obj [("day", .int 9)])]
    error.details.IsOrdered ∧ listed.details.IsOrdered ∧ (extra.map Prod.fst).Nodup ∧
      (∃ merged, error.withDetails (.obj extra) = .ok merged ∧ merged.cause? = error.cause? ∧
        merged.details.get? "account" = some (.str "A-17") ∧
        merged.details.get? "attempts" = some (.int 3) ∧
        (error.withDetail "limits" (.obj [("day", .int 9)]) >>= fun first =>
          first.withDetail "attempts" (.int 3)) = .ok merged) ∧
      listed.withDetails (.obj extra) = .error .shape ∧ listed.withDetails .empty = .ok listed := by
  intro error listed extra
  have ordered : error.details.IsOrdered := Json.isOrdered_object _
  have distinct : (extra.map Prod.fst).Nodup := by decide
  obtain ⟨added, oneByOne, -⟩ := details_are_laid_over error ordered distinct
  obtain ⟨-, -, -, -, refused⟩ := details_are_laid_over listed trivial distinct
  refine ⟨ordered, trivial, distinct, ?_, ?_⟩
  · obtain ⟨merged, result, overlay⟩ := added (.inl rfl)
    refine ⟨merged, result, overlay.cause, overlay.detail "account", overlay.detail "attempts", ?_⟩
    rw [← result, ← oneByOne extra.reverse extra.reverse_perm]
    rfl
  · have closed : ¬ listed.details.IsExtensible := by
      rintro (object | null)
      · cases object
      · cases null
    obtain ⟨-, adding⟩ := refused closed
    exact ⟨(adding _).1 ⟨_, _, rfl⟩, (adding .empty).2 (by rintro ⟨_, _, ⟨⟩⟩)⟩

end Error

end AgentKit
