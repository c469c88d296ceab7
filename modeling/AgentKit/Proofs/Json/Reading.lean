/-
# What a reader has read

The readers of records are put together from a few steps: a value under a key, a text
there, one thing after another, a list of things. For each step it is said when it has a
result, so that a reader is opened from outside, in both directions at once.

A reader and a writer of one kind of record belong together if what is written is read as
it was. Then it does not matter what a record was first read from, with keys that no
record has, or without those that may be missing: from the first writing on it stays the
same, and so does its written form.
-/

import AgentKit.Json.Decode
import Mathlib.Data.List.Forall2

namespace AgentKit

/-! ## Steps -/

namespace Decoded

variable {α β : Type}

/-- A computation has a result if and only if its first step has one, from which the
rest goes on. -/
theorem bind_eq_ok_iff {first : Decoded α} {rest : α → Decoded β} {result : β} :
    (first >>= rest) = .ok result ↔ ∃ value, first = .ok value ∧ rest value = .ok result := by
  cases first <;> simp [bind, Except.bind]

/-- Things are read one after the other if and only if each of them is read. -/
theorem mapM_eq_ok_iff {read : α → Decoded β} {items : List α} {results : List β} :
    items.mapM read = .ok results ↔
      List.Forall₂ (fun item result => read item = .ok result) items results := by
  induction items generalizing results with
  | nil => simp [pure, Except.pure, eq_comm]
  | cons item items ih =>
      simp only [List.mapM_cons, bind_eq_ok_iff, ih, List.forall₂_cons_left_iff]
      constructor
      · rintro ⟨result, here, results, rest, same⟩
        cases same
        exact ⟨result, results, here, rest, rfl⟩
      · rintro ⟨result, results, here, rest, rfl⟩
        exact ⟨result, here, results, rest, rfl⟩

end Decoded

namespace Json

variable {json field : Json} {key text : String}

theorem required_eq_ok_iff : json.required key = .ok field ↔ json.get? key = some field := by
  unfold required
  cases json.get? key <;> simp

theorem required_of_get? (found : json.get? key = some field) : json.required key = .ok field :=
  required_eq_ok_iff.mpr found

theorem requiredText_eq_ok_iff :
    json.requiredText key = .ok text ↔ json.get? key = some (.str text) := by
  unfold requiredText required
  cases json.get? key with
  | none => simp [bind, Except.bind]
  | some field => cases field <;> simp [bind, Except.bind, asText]

theorem present?_of_get? (found : json.get? key = some field) (given : ¬ field.isNull) :
    json.present? key = some field := by
  simp [present?, found, given]

theorem not_isNull_of_present? (found : json.present? key = some field) : ¬ field.isNull := by
  simpa using (Option.filter_eq_some_iff.mp found).2

theorem listIfPresent_eq_ok_iff {α : Type} {read : Json → Decoded (List α)} {items : List α} :
    json.listIfPresent key read = .ok items ↔
      json.present? key = none ∧ items = [] ∨
        ∃ field, json.present? key = some field ∧ read field = .ok items := by
  unfold listIfPresent
  cases json.present? key <;> simp [eq_comm]

theorem asItems_eq_ok_iff {items : List Json} : json.asItems = .ok items ↔ json = .arr items := by
  cases json <;> simp [asItems]

/-- A table of texts is read as it was written. -/
theorem asTextFields_ofTextFields (fields : List (String × String)) :
    (ofTextFields fields).asTextFields = .ok fields :=
  Decoded.mapM_eq_ok_iff.mpr <|
    List.forall₂_map_left_iff.mpr (List.forall₂_same.mpr fun _ _ => rfl)

end Json

/-! ## Records -/

/-- Reading keeps records. A record is read from what is written of it if and only if it
can be written. One that was read, from whatever value, is read again from what is written
of it, as the same record with the same written form. -/
structure KeepsRecords {α : Type} (toJson : α → Json) (ofJson : Json → Decoded α)
    (IsWritable : α → Prop) : Prop where
  read_written : ∀ record, ofJson (toJson record) = .ok record ↔ IsWritable record
  written_again : ∀ json record, ofJson json = .ok record →
    ∃ again, ofJson (toJson record) = .ok again ∧ again = record ∧ toJson again = toJson record

/-- It is enough that what can be written is read, and that what was read can be written. -/
theorem KeepsRecords.of_written {α : Type} {toJson : α → Json} {ofJson : Json → Decoded α}
    {IsWritable : α → Prop}
    (written : ∀ record, IsWritable record → ofJson (toJson record) = .ok record)
    (writable : ∀ json record, ofJson json = .ok record → IsWritable record) :
    KeepsRecords toJson ofJson IsWritable where
  read_written record := ⟨writable (toJson record) record, written record⟩
  written_again json record read :=
    ⟨record, written record (writable json record read), rfl, rfl⟩

end AgentKit
