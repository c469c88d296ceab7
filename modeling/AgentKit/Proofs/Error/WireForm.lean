/-
# Errors on the wire

An error is written as JSON with its cause inside, and leaves out what it does not
have: details without fields, and a cause. Nothing is lost by this. Two errors with
listed codes and objects as details are written as equal values if and only if they
are equal level by level, and as the very same value only if they are the very same
error, so that all of it can be read off the wire.

Equality of JSON values is not that of their numbers' kinds, so the two are
statements apart.
-/

import AgentKit.Error.Basic

namespace AgentKit

theorem ErrorCode.wire_inj {code other : ErrorCode} (listed : code ∈ all)
    (listed' : other ∈ all) : code.wire = other.wire ↔ code = other := by
  constructor
  · intro same
    have found := ofWire?_wire listed
    rw [same, ofWire?_wire listed'] at found
    exact (Option.some.inj found).symm
  · rintro rfl
    rfl

/-! ## One level -/

namespace Report

/-- The code is one of the listed, and the details are an object. -/
structure IsRegular (report : Report) : Prop where
  code : report.code ∈ ErrorCode.all
  details : report.details.isObject

instance (report : Report) : Decidable report.IsRegular :=
  decidable_of_iff (report.code ∈ ErrorCode.all ∧ report.details.isObject)
    ⟨fun ⟨code, details⟩ => ⟨code, details⟩, fun regular => ⟨regular.code, regular.details⟩⟩

/-- The details as they are written, if they are. -/
def writtenDetails? (report : Report) : Option Json :=
  match report.details with
  | .obj (field :: fields) => some (.obj (field :: fields))
  | _ => none

theorem fields_eq (report : Report) :
    report.fields = Fields.present
      [("code", some (.str report.code.wire)), ("message", some (.str report.message)),
        ("details", report.writtenDetails?)] := by
  obtain ⟨code, message, details⟩ := report
  cases details with
  | obj fields => cases fields <;> rfl
  | _ => rfl

variable {report other : Report}

/-- Two levels are equal if code and message are, and the details are or cannot be told
apart. -/
theorem same_iff :
    report.same other ↔ report.code = other.code ∧ report.message = other.message ∧
      (report.details.same other.details ∨ report.details.isUnordered other.details) := by
  rw [← Json.not_differs_iff]
  simp [same, and_assoc]

/-- An object that is left out has no fields, so that it equals no object that is not. -/
theorem sameIfAny_writtenDetails?_iff (regular : report.IsRegular) (regular' : other.IsRegular) :
    Json.SameIfAny report.writtenDetails? other.writtenDetails? ↔
      report.details.same other.details := by
  obtain ⟨code, message, details⟩ := report
  obtain ⟨code', message', details'⟩ := other
  cases details with
  | obj fields =>
      cases details' with
      | obj fields' =>
          cases fields <;> cases fields' <;> simp [writtenDetails?, Json.same, Json.sameFields]
      | _ => cases regular'.details
  | _ => cases regular.details

theorem writtenDetails?_inj (regular : report.IsRegular) (regular' : other.IsRegular) :
    report.writtenDetails? = other.writtenDetails? ↔ report.details = other.details := by
  obtain ⟨code, message, details⟩ := report
  obtain ⟨code', message', details'⟩ := other
  cases details with
  | obj fields =>
      cases details' with
      | obj fields' => cases fields <;> cases fields' <;> simp [writtenDetails?]
      | _ => cases regular'.details
  | _ => cases regular.details

/-- What is written of two levels is equal if and only if they are. -/
theorem same_iff_written (regular : report.IsRegular) (regular' : other.IsRegular) :
    report.same other ↔
      report.code.wire = other.code.wire ∧ report.message = other.message ∧
        Json.SameIfAny report.writtenDetails? other.writtenDetails? := by
  have ordered : ¬ report.details.isUnordered other.details :=
    Json.not_isUnordered_of_isObject regular.details
  rw [ErrorCode.wire_inj regular.code regular'.code,
    sameIfAny_writtenDetails?_iff regular regular', same_iff]
  simp [ordered]

/-- What is written of two levels is the same if and only if they are. -/
theorem eq_iff_written (regular : report.IsRegular) (regular' : other.IsRegular) :
    report = other ↔
      report.code.wire = other.code.wire ∧ report.message = other.message ∧
        report.writtenDetails? = other.writtenDetails? := by
  rw [ErrorCode.wire_inj regular.code regular'.code, writtenDetails?_inj regular regular']
  cases report
  cases other
  simp

end Report

namespace Error

/-! ## Fields -/

/-- The fields of an error, of which some may be missing. -/
def fields (error : Error) : List (String × Option Json) :=
  [("code", some (.str error.report.code.wire)), ("message", some (.str error.report.message)),
    ("details", error.report.writtenDetails?), ("cause", error.cause?.map toJson)]

theorem nodup_keys_fields (error : Error) : (error.fields.map Prod.fst).Nodup := by
  simp [fields]

theorem toJson_eq (error : Error) : error.toJson = .object (Fields.present error.fields) := by
  cases error with
  | root report =>
      rw [toJson, Report.fields_eq]
      rfl
  | wrap report cause =>
      have nested : [("cause", cause.toJson)] =
          Fields.present [("cause", some cause.toJson)] := rfl
      rw [toJson, Report.fields_eq, nested, Fields.present, Fields.present,
        ← List.filterMap_append]
      rfl

variable {error other : Error}

theorem get?_toJson {key : String} {value : Option Json} (listed : (key, value) ∈ error.fields) :
    error.toJson.get? key = value := by
  rw [toJson_eq, Json.get?_object, Fields.find?_present error.nodup_keys_fields listed]

/-- Where the fields of two errors are related one by one, each part of them is. -/
theorem parts_of_fields {related : Option Json → Option Json → Prop}
    (part : ∀ key {value value'}, (key, value) ∈ error.fields → (key, value') ∈ other.fields →
      related value value') :
    related (some (.str error.report.code.wire)) (some (.str other.report.code.wire)) ∧
      related (some (.str error.report.message)) (some (.str other.report.message)) ∧
      related error.report.writtenDetails? other.report.writtenDetails? ∧
      related (error.cause?.map toJson) (other.cause?.map toJson) :=
  ⟨part "code" (by simp [fields]) (by simp [fields]),
    part "message" (by simp [fields]) (by simp [fields]),
    part "details" (by simp [fields]) (by simp [fields]),
    part "cause" (by simp [fields]) (by simp [fields])⟩

/-- Errors are written as equal values if and only if their outermost levels and their causes
are. -/
theorem same_toJson_iff_parts (regular : error.report.IsRegular)
    (regular' : other.report.IsRegular) :
    error.toJson.same other.toJson ↔
      error.report.same other.report ∧
        Json.SameIfAny (error.cause?.map toJson) (other.cause?.map toJson) := by
  rw [Report.same_iff_written regular regular']
  constructor
  · intro same
    have part : ∀ key {value value'}, (key, value) ∈ error.fields →
        (key, value') ∈ other.fields → Json.SameIfAny value value' := by
      intro key value value' listed listed'
      rw [← get?_toJson listed, ← get?_toJson listed']
      exact Json.sameIfAny_get? same key
    obtain ⟨code, message, details, cause⟩ := parts_of_fields part
    exact ⟨⟨by simpa [Json.same] using code, by simpa [Json.same] using message, details⟩, cause⟩
  · rintro ⟨⟨code, message, details⟩, cause⟩
    rw [error.toJson_eq, other.toJson_eq]
    apply Json.same_object
    apply Json.sameFields_present_cons (.some (by simpa [Json.same] using code))
    apply Json.sameFields_present_cons (.some (by simpa [Json.same] using message))
    apply Json.sameFields_present_cons details
    exact Json.sameFields_present_cons cause rfl _

/-- Errors are written as one value if and only if their outermost levels and their causes
are. -/
theorem toJson_eq_iff_parts (regular : error.report.IsRegular)
    (regular' : other.report.IsRegular) :
    error.toJson = other.toJson ↔
      error.report = other.report ∧ error.cause?.map toJson = other.cause?.map toJson := by
  rw [Report.eq_iff_written regular regular']
  constructor
  · intro same
    have part : ∀ key {value value'}, (key, value) ∈ error.fields →
        (key, value') ∈ other.fields → value = value' := by
      intro key value value' listed listed'
      rw [← get?_toJson listed, ← get?_toJson listed', same]
    obtain ⟨code, message, details, cause⟩ := parts_of_fields part
    exact ⟨⟨by simpa using code, by simpa using message, details⟩, cause⟩
  · rintro ⟨⟨code, message, details⟩, cause⟩
    have same : error.fields = other.fields := by
      rw [fields, fields, code, message, details, cause]
    rw [error.toJson_eq, other.toJson_eq, same]

/-! ## Chains -/

/-- Every level of the error is regular. -/
def IsRegular (error : Error) : Prop :=
  ∀ report ∈ error.chain, report.IsRegular

instance (error : Error) : Decidable error.IsRegular :=
  inferInstanceAs (Decidable (∀ report ∈ error.chain, report.IsRegular))

theorem IsRegular.report (regular : error.IsRegular) : error.report.IsRegular := by
  apply regular
  rw [chain_eq_cons]
  exact List.mem_cons_self

theorem IsRegular.cause {report : Report} (regular : (wrap report error).IsRegular) :
    error.IsRegular :=
  fun level inside => regular level (List.mem_cons_of_mem report inside)

/-- Chains of different lengths differ where the shorter one ends. -/
theorem same_toJson_iff (regular : error.IsRegular) (regular' : other.IsRegular) :
    error.toJson.same other.toJson ↔ error.same other := by
  induction error generalizing other with
  | root report =>
      rw [same_toJson_iff_parts regular.report regular'.report]
      cases other <;> simp [cause?, same, Error.report]
  | wrap report cause ih =>
      rw [same_toJson_iff_parts regular.report regular'.report]
      cases other with
      | root report' => simp [cause?, same]
      | wrap report' cause' => simp [cause?, same, Error.report, ih regular.cause regular'.cause]

theorem toJson_inj (regular : error.IsRegular) (regular' : other.IsRegular) :
    error.toJson = other.toJson ↔ error = other := by
  induction error generalizing other with
  | root report =>
      rw [toJson_eq_iff_parts regular.report regular'.report]
      cases other <;> simp [cause?, Error.report]
  | wrap report cause ih =>
      rw [toJson_eq_iff_parts regular.report regular'.report]
      cases other with
      | root report' => simp [cause?]
      | wrap report' cause' => simp [cause?, Error.report, ih regular.cause regular'.cause]

/-- Errors with listed codes and objects as details are written as equal values if and only
if they are equal, however long the chains of their causes are, and as the very same value
only if they are the very same error. -/
theorem wire_form_is_faithful (regular : error.IsRegular) (regular' : other.IsRegular) :
    (error.toJson.same other.toJson ↔ error.same other) ∧
      (error.toJson = other.toJson ↔ error = other) :=
  ⟨same_toJson_iff regular regular', toJson_inj regular regular'⟩

/-- An error with two causes, of which the nearer one tells a count. -/
def lookupFailure (count : Json) : Error :=
  .wrap ⟨.internal, "lookup failed", .empty⟩
    (.wrap ⟨.unavailableDependency, "no answer", .obj [("attempts", count)]⟩
      (.make .timeout "took too long"))

/-- One attempt is one attempt, but an integer is not a floating-point number. -/
theorem wire_form_is_faithful_of_lookupFailure :
    let error := lookupFailure (.int 1)
    let other := lookupFailure (.float (.ofInt 1))
    error.IsRegular ∧ other.IsRegular ∧ error.toJson.same other.toJson ∧
      error.toJson ≠ other.toJson := by
  intro error other
  have regular : error.IsRegular := by decide
  have regular' : other.IsRegular := by decide
  obtain ⟨equal, identical⟩ := wire_form_is_faithful regular regular'
  refine ⟨regular, regular', equal.mpr (by decide), ?_⟩
  intro written
  simpa [error, other, lookupFailure] using identical.mp written

end Error

end AgentKit
