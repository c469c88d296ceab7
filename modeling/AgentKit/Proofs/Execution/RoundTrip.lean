/-
# Execution records written and read again

A record that is written as JSON and read again is the record with all its times cut
to milliseconds: whatever is left out in writing is what reading supplies. So a
record that was read from JSON is kept as it is, whatever else the JSON held and
however its times were spelled, as long as no text denotes a time out of reach of 64
bits. The reader wraps such a time around into another one, which is never one of
whole milliseconds.
-/

import AgentKit.Execution
import AgentKit.Proofs.Json.Reading
import AgentKit.Proofs.Time.ReadBack

namespace AgentKit

namespace ExecutionStatus

theorem ofName?_name {status : ExecutionStatus} (listed : status ∈ all) :
    ofName? status.name = some status := by
  revert status
  decide

theorem ofJson_toJson {status : ExecutionStatus} (listed : status ∈ all) :
    ofJson status.toJson = .ok status := by
  simp [toJson, ofJson, ofName?_name listed]

theorem mem_all_of_ofJson {json : Json} {status : ExecutionStatus}
    (read : ofJson json = .ok status) : status ∈ all := by
  cases json with
  | str name =>
      cases found : ofName? name with
      | none => simp [ofJson, found] at read
      | some status' =>
          simp only [ofJson, found, Except.ok.injEq] at read
          exact read ▸ List.mem_of_find?_eq_some found
  | _ => cases read

end ExecutionStatus

namespace Execution

variable {execution : Execution} {json : Json}

/-! ## Times -/

/-- The times of a record. -/
def times (execution : Execution) : List Instant :=
  execution.startTime :: execution.endTime.toList ++ [execution.createdAt, execution.updatedAt]

theorem forall_mem_times {holds : Instant → Prop} :
    (∀ time ∈ execution.times, holds time) ↔
      holds execution.startTime ∧ (∀ time ∈ execution.endTime, holds time) ∧
        holds execution.createdAt ∧ holds execution.updatedAt := by
  simp [times, or_imp, forall_and]

/-- The record with all its times cut to whole milliseconds. -/
def cutToMillis (execution : Execution) : Execution :=
  { execution with
    startTime := execution.startTime.cutToMillis
    endTime := execution.endTime.map Instant.cutToMillis
    createdAt := execution.createdAt.cutToMillis
    updatedAt := execution.updatedAt.cutToMillis }

theorem cutToMillis_eq_self_iff :
    execution.cutToMillis = execution ↔ ∀ time ∈ execution.times, time.cutToMillis = time := by
  rw [forall_mem_times]
  obtain ⟨_, _, _, _, _, endTime⟩ := execution
  cases endTime <;> simp [cutToMillis]

/-! ## Fields -/

variable {key : String}

/-- A text that is left out if it is empty is read as it was. -/
theorem optionalText_of_get? {text : String} (found : json.get? key = textUnlessEmpty text) :
    json.optionalText key = .ok text := by
  unfold Json.optionalText
  rw [found, textUnlessEmpty]
  by_cases empty : text.isEmpty
  · simp [String.isEmpty_iff.mp empty]
  · simp [empty, Json.asText]

/-- A number that is left out if it is zero is read as it was. -/
theorem countField_of_get? {count : Int} (found : json.get? key = countUnlessZero count)
    (held : IntFormat.int32.holds count) : countField json key = .ok count := by
  unfold countField
  rw [found, countUnlessZero]
  by_cases zero : count = 0
  · simp [zero, pure, Except.pure]
  · rw [if_neg zero]
    exact congrArg Except.ok (wrap32_eq_self held)

/-- Whatever is converted to a 32-bit integer, it is one. -/
theorem holds_of_asInt32 {value : Json} {n : Int} (converted : value.asInt32 = .ok n) :
    IntFormat.int32.holds n := by
  cases value with
  | int whole =>
      cases converted
      exact holds_wrap32 _
  | bool truth => cases truth <;> cases converted <;> decide
  | float number =>
      simp only [Json.asInt32] at converted
      split at converted
      · next whole =>
          cases converted
          exact (Option.filter_eq_some_iff.mp whole).2
      · cases converted
  | null | str | arr | obj => cases converted

theorem holds_of_countField {count : Int} (read : countField json key = .ok count) :
    IntFormat.int32.holds count := by
  unfold countField at read
  split at read
  · exact holds_of_asInt32 read
  · cases read
    decide

theorem timeField_eq_ok_iff {time : Instant} :
    timeField json key = .ok time ↔
      ∃ text, json.get? key = some (.str text) ∧ Instant.parse text = .ok time := by
  unfold timeField
  rw [Decoded.bind_eq_ok_iff]
  refine exists_congr fun text => ?_
  rw [Json.requiredText_eq_ok_iff]
  cases Instant.parse text <;> simp

theorem fits_of_timeField {time : Instant} (read : timeField json key = .ok time) : time.Fits := by
  obtain ⟨_, _, read⟩ := timeField_eq_ok_iff.mp read
  exact Instant.fits_of_parse read

theorem present?_of_timeField {time : Instant} (read : timeField json key = .ok time) :
    json.present? key ≠ none := by
  obtain ⟨text, found, _⟩ := timeField_eq_ok_iff.mp read
  simp [Json.present?_of_get? found nofun]

/-- A time that may be missing is missing, or it is there like any other. -/
theorem optionalTimeField_eq_ok_iff {time? : Option Instant} :
    optionalTimeField json key = .ok time? ↔
      json.present? key = none ∧ time? = none ∨
        ∃ time, timeField json key = .ok time ∧ time? = some time := by
  unfold optionalTimeField
  cases present : json.present? key with
  | none =>
      have absent : ∀ time, timeField json key ≠ .ok time := fun _ read =>
        present?_of_timeField read present
      simp [absent, pure, Except.pure, eq_comm]
  | some field =>
      cases timeField json key <;> simp [Functor.map, Except.map, eq_comm]

theorem timeField_of_get? {time : Instant} (found : json.get? key = some (.str time.render))
    (fits : time.Fits) (since : 0 ≤ time.nanos) : timeField json key = .ok time.cutToMillis :=
  timeField_eq_ok_iff.mpr
    ⟨_, found, fits.parse_render (Instant.isReadable_of_nonneg since)⟩

theorem optionalTimeField_of_get? {time? : Option Instant}
    (found : json.get? key = time?.map fun time => .str time.render)
    (fits : ∀ time ∈ time?, time.Fits ∧ 0 ≤ time.nanos) :
    optionalTimeField json key = .ok (time?.map Instant.cutToMillis) := by
  rw [optionalTimeField_eq_ok_iff]
  cases time? with
  | none => exact .inl ⟨by simp [Json.present?, found], rfl⟩
  | some time =>
      obtain ⟨fits, since⟩ := fits time rfl
      exact .inr ⟨_, timeField_of_get? found fits since, rfl⟩

/-- The text under a key, if there is one, is not a time out of reach. -/
def FieldFits (json : Json) (key : String) : Prop :=
  ∀ text, json.get? key = some (.str text) → Instant.TextFits text

instance (json : Json) (key : String) : Decidable (FieldFits json key) :=
  match found : json.requiredText key with
  | .ok text => decidable_of_iff (Instant.TextFits text) (by
      simp [FieldFits, Json.requiredText_eq_ok_iff.mp found])
  | .error _ => isTrue fun _ there => by
      cases found.symm.trans (Json.requiredText_eq_ok_iff.mpr there)

/-- What is read under a key is a time of whole milliseconds if and only if its text is
not out of reach. -/
theorem cutToMillis_eq_self_iff_of_timeField {time : Instant}
    (read : timeField json key = .ok time) : time.cutToMillis = time ↔ FieldFits json key := by
  obtain ⟨text, found, read⟩ := timeField_eq_ok_iff.mp read
  simp [FieldFits, Instant.cutToMillis_eq_self_iff_of_parse read, found]

theorem cutToMillis_eq_self_iff_of_optionalTimeField {time? : Option Instant}
    (read : optionalTimeField json key = .ok time?) :
    (∀ time ∈ time?, time.cutToMillis = time) ↔ FieldFits json key := by
  rcases optionalTimeField_eq_ok_iff.mp read with ⟨absent, rfl⟩ | ⟨time, there, rfl⟩
  · have unwritten : ∀ text, json.get? key ≠ some (.str text) := fun text found => by
      cases (Json.present?_of_get? found nofun).symm.trans absent
    simp [FieldFits, unwritten]
  · simpa using cutToMillis_eq_self_iff_of_timeField there

/-! ## Reading -/

/-- What a value says of a record, field by field. -/
structure IsReadFrom (execution : Execution) (json : Json) : Prop where
  id : json.requiredText "id" = .ok execution.id
  identityId : json.requiredText "identity_id" = .ok execution.identityId
  intent : json.requiredText "intent" = .ok execution.intent
  status : (json.required "status" >>= ExecutionStatus.ofJson) = .ok execution.status
  startTime : timeField json "start_time" = .ok execution.startTime
  endTime : optionalTimeField json "end_time" = .ok execution.endTime
  podName : json.optionalText "pod_name" = .ok execution.podName
  nameSpace : json.requiredText "namespace" = .ok execution.nameSpace
  model : json.optionalText "model" = .ok execution.model
  tokensUsed : countField json "tokens_used" = .ok execution.tokensUsed
  errorMessage : json.optionalText "error_message" = .ok execution.errorMessage
  metadata : (json.present? "metadata").getD .empty = execution.metadata
  createdAt : timeField json "created_at" = .ok execution.createdAt
  updatedAt : timeField json "updated_at" = .ok execution.updatedAt

theorem ofJson_eq_ok_iff : ofJson json = .ok execution ↔ execution.IsReadFrom json := by
  unfold ofJson
  simp only [Decoded.bind_eq_ok_iff]
  constructor
  · rintro ⟨_, id, _, identityId, _, intent, encoded, present, _, status, _, startTime, _, endTime,
      _, podName, _, nameSpace, _, model, _, tokensUsed, _, errorMessage, _, createdAt, _, updatedAt,
      same⟩
    cases same
    exact {
      id, identityId, intent, startTime, endTime, podName, nameSpace, model, tokensUsed
      errorMessage, createdAt, updatedAt
      metadata := rfl
      status := Decoded.bind_eq_ok_iff.mpr ⟨encoded, present, status⟩ }
  · intro read
    obtain ⟨encoded, present, status⟩ := Decoded.bind_eq_ok_iff.mp read.status
    refine ⟨_, read.id, _, read.identityId, _, read.intent, encoded, present, _, status,
      _, read.startTime, _, read.endTime, _, read.podName, _, read.nameSpace, _, read.model,
      _, read.tokensUsed, _, read.errorMessage, _, read.createdAt, _, read.updatedAt, ?_⟩
    rw [read.metadata]
    rfl

/-! ## Writing -/

/-- A record that can be written: its status has a name, its data are not null, and its
numbers have the width that the record gives them, its times from the epoch on. -/
structure IsWritable (execution : Execution) : Prop where
  status : execution.status ∈ ExecutionStatus.all
  metadata : ¬ execution.metadata.isNull
  tokensUsed : IntFormat.int32.holds execution.tokensUsed
  times : ∀ time ∈ execution.times, time.Fits ∧ 0 ≤ time.nanos

theorem nodup_keys_fields (execution : Execution) : (execution.fields.map Prod.fst).Nodup := by
  simp only [fields, List.map_cons, List.map_nil]
  decide

/-- What stands in a written record. -/
theorem get?_toJson {key : String} {value : Option Json}
    (listed : (key, value) ∈ execution.fields) : execution.toJson.get? key = value := by
  rw [toJson, Json.get?_object, Fields.find?_present execution.nodup_keys_fields listed]

/-- A record that can be written is read as the record cut to milliseconds. -/
theorem isReadFrom_toJson (writable : execution.IsWritable) :
    execution.cutToMillis.IsReadFrom execution.toJson where
  id := Json.requiredText_eq_ok_iff.mpr (get?_toJson (by simp [fields, cutToMillis]))
  identityId := Json.requiredText_eq_ok_iff.mpr (get?_toJson (by simp [fields, cutToMillis]))
  intent := Json.requiredText_eq_ok_iff.mpr (get?_toJson (by simp [fields, cutToMillis]))
  nameSpace := Json.requiredText_eq_ok_iff.mpr (get?_toJson (by simp [fields, cutToMillis]))
  podName := optionalText_of_get? (get?_toJson (by simp [fields, cutToMillis]))
  model := optionalText_of_get? (get?_toJson (by simp [fields, cutToMillis]))
  errorMessage := optionalText_of_get? (get?_toJson (by simp [fields, cutToMillis]))
  tokensUsed := countField_of_get? (get?_toJson (by simp [fields, cutToMillis])) writable.tokensUsed
  status := by
    have found : execution.toJson.get? "status" = some execution.status.toJson :=
      get?_toJson (by simp [fields])
    rw [Json.required_of_get? found]
    exact ExecutionStatus.ofJson_toJson writable.status
  metadata := by
    have found : execution.toJson.get? "metadata" = some execution.metadata :=
      get?_toJson (by simp [fields])
    rw [Json.present?_of_get? found writable.metadata]
    rfl
  startTime :=
    have ⟨fits, since⟩ := (forall_mem_times.mp writable.times).1
    timeField_of_get? (get?_toJson (by simp [fields])) fits since
  endTime :=
    optionalTimeField_of_get? (get?_toJson (by simp [fields]))
      (forall_mem_times.mp writable.times).2.1
  createdAt :=
    have ⟨fits, since⟩ := (forall_mem_times.mp writable.times).2.2.1
    timeField_of_get? (get?_toJson (by simp [fields])) fits since
  updatedAt :=
    have ⟨fits, since⟩ := (forall_mem_times.mp writable.times).2.2.2
    timeField_of_get? (get?_toJson (by simp [fields])) fits since

/-! ## The round trip -/

namespace IsReadFrom

variable (read : execution.IsReadFrom json)

include read

theorem fits : ∀ time ∈ execution.times, time.Fits := by
  have ends : ∀ time ∈ execution.endTime, time.Fits := by
    rcases optionalTimeField_eq_ok_iff.mp read.endTime with ⟨_, none⟩ | ⟨time, there, some⟩
    · simp [none]
    · simpa [some] using fits_of_timeField there
  exact forall_mem_times.mpr ⟨fits_of_timeField read.startTime, ends,
    fits_of_timeField read.createdAt, fits_of_timeField read.updatedAt⟩

/-- A record that was read can be written, unless it has a time before the epoch. -/
theorem isWritable (since : ∀ time ∈ execution.times, 0 ≤ time.nanos) : execution.IsWritable where
  status := by
    obtain ⟨_, _, status⟩ := Decoded.bind_eq_ok_iff.mp read.status
    exact ExecutionStatus.mem_all_of_ofJson status
  metadata := by
    rw [← read.metadata]
    cases present : json.present? "metadata" with
    | none => decide
    | some field => exact Json.not_isNull_of_present? present
  tokensUsed := holds_of_countField read.tokensUsed
  times := fun time member => ⟨read.fits time member, since time member⟩

end IsReadFrom

/-- The keys under which a record has its times. -/
def timeKeys : List String := ["start_time", "end_time", "created_at", "updated_at"]

/-- No text that stands for a time is out of reach of 64 bits. -/
def TimesFit (json : Json) : Prop :=
  ∀ key ∈ timeKeys, FieldFits json key

instance (json : Json) : Decidable (TimesFit json) :=
  inferInstanceAs (Decidable (∀ key ∈ timeKeys, FieldFits json key))

/-- The times of a record that was read are whole milliseconds exactly if no text that
stands for a time is out of reach. -/
theorem cutToMillis_eq_self_iff_of_isReadFrom (read : execution.IsReadFrom json) :
    execution.cutToMillis = execution ↔ TimesFit json := by
  rw [cutToMillis_eq_self_iff, forall_mem_times,
    cutToMillis_eq_self_iff_of_timeField read.startTime,
    cutToMillis_eq_self_iff_of_optionalTimeField read.endTime,
    cutToMillis_eq_self_iff_of_timeField read.createdAt,
    cutToMillis_eq_self_iff_of_timeField read.updatedAt]
  simp [TimesFit, timeKeys]

/-- Writing a record and reading it again cuts its times to milliseconds. A record that
was read from JSON, with all its times from the epoch on, is kept as it is if and only if
no text that stands for a time is out of reach of 64 bits. -/
theorem json_round_trip (execution : Execution) :
    (execution.IsWritable → ofJson execution.toJson = .ok execution.cutToMillis) ∧
    ∀ json, ofJson json = .ok execution → (∀ time ∈ execution.times, 0 ≤ time.nanos) →
      (ofJson execution.toJson = .ok execution ↔ TimesFit json) := by
  have written : execution.IsWritable → ofJson execution.toJson = .ok execution.cutToMillis :=
    fun writable => ofJson_eq_ok_iff.mpr (isReadFrom_toJson writable)
  refine ⟨written, fun json read since => ?_⟩
  have read := ofJson_eq_ok_iff.mp read
  rw [written (read.isWritable since), Except.ok.injEq]
  exact cutToMillis_eq_self_iff_of_isReadFrom read

/-- An execution as a terse client reports it: its times with another fraction than the
writer's, its end and its data null, and a field that no record has. -/
def terseReport : Json :=
  .obj
    [("created_at", .str "2024-01-02T03:04:05Z"), ("end_time", .null), ("id", .str "exec-1"),
      ("identity_id", .str "user-1"), ("intent", .str "summarize"), ("metadata", .null),
      ("namespace", .str "default"), ("retries", .int 3),
      ("start_time", .str "2024-01-02T03:04:05.1239z"), ("status", .str "running"),
      ("tokens_used", .int (-5)), ("updated_at", .str "2024-02-30T23:59:60.5Z")]

/-- The record of the terse report. -/
def terseExecution : Execution where
  id := "exec-1"
  identityId := "user-1"
  intent := "summarize"
  status := .running
  startTime := ⟨1704164645123000000⟩
  nameSpace := "default"
  tokensUsed := -5
  createdAt := ⟨1704164645000000000⟩
  updatedAt := ⟨1709337600500000000⟩

/-- The same execution as it was measured, and with an end at the last instant of all. -/
def measuredExecution : Execution :=
  { terseExecution with
    startTime := ⟨1704164645123456789⟩
    endTime := some ⟨9223372036854775807⟩ }

theorem json_round_trip_of_terseReport :
    measuredExecution.IsWritable ∧
      ofJson measuredExecution.toJson = .ok measuredExecution.cutToMillis ∧
      ofJson terseReport = .ok terseExecution ∧
      (∀ time ∈ terseExecution.times, 0 ≤ time.nanos) ∧ TimesFit terseReport ∧
      ofJson terseExecution.toJson = .ok terseExecution := by
  have writable : measuredExecution.IsWritable := {
    status := by decide
    metadata := by decide
    tokensUsed := by decide
    times := by decide }
  have read : ofJson terseReport = .ok terseExecution := rfl
  have since : ∀ time ∈ terseExecution.times, 0 ≤ time.nanos := by decide
  have fits : TimesFit terseReport := by decide +kernel
  exact ⟨writable, (json_round_trip measuredExecution).1 writable, read, since, fits,
    ((json_round_trip terseExecution).2 terseReport read since).mpr fits⟩

/-- A report of an execution that starts in a year out of reach. -/
def farReport : Json :=
  .obj
    [("created_at", .str "2024-01-02T03:04:05Z"), ("end_time", .str "2015-06-13T00:25:27.290Z"),
      ("id", .str "exec-1"), ("identity_id", .str "user-1"), ("intent", .str "summarize"),
      ("namespace", .str "default"), ("start_time", .str "2600-01-01T00:00:00Z"),
      ("status", .str "completed"), ("updated_at", .str "2024-01-02T03:04:05Z")]

/-- The record of the far report: it starts in 2015, off the milliseconds. -/
def farExecution : Execution where
  id := "exec-1"
  identityId := "user-1"
  intent := "summarize"
  status := .completed
  startTime := ⟨1434155126290448384⟩
  endTime := some ⟨1434155127290000000⟩
  nameSpace := "default"
  createdAt := ⟨1704164645000000000⟩
  updatedAt := ⟨1704164645000000000⟩

/-- A start out of reach is read as one within reach, which is another one after writing
it. -/
theorem far_start_is_moved :
    ofJson farReport = .ok farExecution ∧ (∀ time ∈ farExecution.times, 0 ≤ time.nanos) ∧
      ofJson farExecution.toJson ≠ .ok farExecution := by
  have read : ofJson farReport = .ok farExecution := rfl
  have since : ∀ time ∈ farExecution.times, 0 ≤ time.nanos := by decide
  refine ⟨read, since, fun kept => ?_⟩
  have cut := ofJson_eq_ok_iff.mpr
    (isReadFrom_toJson ((ofJson_eq_ok_iff.mp read).isWritable since))
  have same := Except.ok.inj (cut.symm.trans kept)
  exact absurd (congrArg Execution.startTime same) (by decide)

end Execution

end AgentKit
