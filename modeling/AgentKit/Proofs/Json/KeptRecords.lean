/-
# Capabilities and call chains in JSON

Capabilities and call chains are kept when they are written as JSON and read again. Each
has fields that need not be there. The metadata of a capability are left out if there are
none, the callers of a chain are not, and reading takes what is absent or null for empty,
so writer and reader agree in all cases.

Every capability can be written. A call chain can be written if all its identity types
have names; the others are written as one word, which no reader takes.
-/

import AgentKit.Agent.Capability
import AgentKit.Identity.CallChain
import AgentKit.Proofs.Json.Reading

namespace AgentKit

variable {json : Json}

/-! ## Identity types -/

namespace IdentityType

variable {type : IdentityType}

theorem ofName?_name (valid : type.isValid) : ofName? type.name = some type := by
  cases type with
  | unlisted index => cases valid
  | _ => rfl

theorem ofName?_eq_some_iff {name : String} :
    ofName? name = some type ↔ type.isValid ∧ type.name = name := by
  constructor
  · intro found
    rw [ofName?] at found
    exact ⟨List.contains_iff_mem.mpr (List.mem_of_find?_eq_some found),
      by simpa using List.find?_some found⟩
  · rintro ⟨valid, rfl⟩
    exact ofName?_name valid

/-- An identity type is read from its name only, and only if it has one. -/
theorem ofJson_eq_ok_iff : ofJson json = .ok type ↔ type.isValid ∧ json = type.toJson := by
  cases json with
  | str name =>
      simp only [ofJson, toJson, Json.str.injEq, @eq_comm _ name, ← ofName?_eq_some_iff]
      cases ofName? name <;> simp
  | _ => simp [ofJson, toJson]

theorem keepsRecords : KeepsRecords toJson ofJson fun type => type.isValid :=
  .of_written (fun _ valid => ofJson_eq_ok_iff.mpr ⟨valid, rfl⟩)
    fun _ _ read => (ofJson_eq_ok_iff.mp read).1

end IdentityType

/-! ## Call chains -/

namespace Caller

variable {caller : Caller}

/-- What a value says of a caller, field by field. -/
structure IsReadFrom (caller : Caller) (json : Json) : Prop where
  serviceName : json.get? "service_name" = some (.str caller.serviceName)
  identityId : json.get? "identity_id" = some (.str caller.identityId)
  valid : caller.identityType.isValid
  identityType : json.get? "identity_type" = some caller.identityType.toJson

theorem ofJson_eq_ok_iff : ofJson json = .ok caller ↔ caller.IsReadFrom json := by
  unfold ofJson
  simp only [Decoded.bind_eq_ok_iff, Json.requiredText_eq_ok_iff, Json.required_eq_ok_iff,
    IdentityType.ofJson_eq_ok_iff]
  constructor
  · rintro ⟨_, serviceName, _, identityId, _, identityType, _, ⟨valid, rfl⟩, same⟩
    cases same
    exact ⟨serviceName, identityId, valid, identityType⟩
  · intro read
    exact ⟨_, read.serviceName, _, read.identityId, _, read.identityType, _, ⟨read.valid, rfl⟩, rfl⟩

theorem isReadFrom_toJson (valid : caller.identityType.isValid) :
    caller.IsReadFrom caller.toJson where
  serviceName := by simp [toJson, Json.get?_object, Fields.find?]
  identityId := by simp [toJson, Json.get?_object, Fields.find?]
  valid := valid
  identityType := by simp [toJson, Json.get?_object, Fields.find?]

theorem keepsRecords : KeepsRecords toJson ofJson fun caller => caller.identityType.isValid :=
  .of_written (fun _ valid => ofJson_eq_ok_iff.mpr (isReadFrom_toJson valid))
    fun _ _ read => (ofJson_eq_ok_iff.mp read).valid

end Caller

namespace CallChain

variable {chain : CallChain}

/-- All identity types in a chain are valid. -/
def HasValidTypes (chain : CallChain) : Prop :=
  chain.originalType.isValid ∧ ∀ caller ∈ chain.callers, caller.identityType.isValid

/-- What a value says of a chain, field by field. -/
structure IsReadFrom (chain : CallChain) (json : Json) : Prop where
  originalId : json.get? "original_id" = some (.str chain.originalId)
  valid : chain.originalType.isValid
  originalType : json.get? "original_type" = some chain.originalType.toJson
  callers :
    json.present? "callers" = none ∧ chain.callers = [] ∨
      ∃ items, json.present? "callers" = some (.arr items) ∧
        List.Forall₂ (fun item (caller : Caller) => caller.IsReadFrom item) items chain.callers

theorem ofJson_eq_ok_iff : ofJson json = .ok chain ↔ chain.IsReadFrom json := by
  unfold ofJson
  simp only [Decoded.bind_eq_ok_iff, Json.requiredText_eq_ok_iff, Json.required_eq_ok_iff,
    IdentityType.ofJson_eq_ok_iff, Json.listIfPresent_eq_ok_iff, Json.asItems_eq_ok_iff,
    Decoded.mapM_eq_ok_iff, Caller.ofJson_eq_ok_iff]
  constructor
  · rintro ⟨_, originalId, _, originalType, _, ⟨valid, rfl⟩, _, callers, same⟩
    cases same
    refine ⟨originalId, valid, originalType, callers.imp_right ?_⟩
    rintro ⟨field, present, items, rfl, read⟩
    exact ⟨items, present, read⟩
  · intro read
    refine ⟨_, read.originalId, _, read.originalType, _, ⟨read.valid, rfl⟩, _,
      read.callers.imp_right ?_, rfl⟩
    rintro ⟨items, present, read⟩
    exact ⟨_, present, items, rfl, read⟩

theorem isReadFrom_toJson (valid : chain.HasValidTypes) : chain.IsReadFrom chain.toJson where
  originalId := by simp [toJson, Json.get?_object, Fields.find?]
  valid := valid.1
  originalType := by simp [toJson, Json.get?_object, Fields.find?]
  callers := by
    have written : chain.toJson.get? "callers" = some (.arr (chain.callers.map Caller.toJson)) := by
      simp [toJson, Json.get?_object, Fields.find?]
    refine .inr ⟨_, Json.present?_of_get? written Bool.false_ne_true, List.forall₂_map_left_iff.mpr ?_⟩
    exact List.forall₂_same.mpr fun caller listed => Caller.isReadFrom_toJson (valid.2 caller listed)

theorem IsReadFrom.hasValidTypes (read : chain.IsReadFrom json) : chain.HasValidTypes := by
  refine ⟨read.valid, ?_⟩
  rcases read.callers with ⟨_, none⟩ | ⟨items, _, callers⟩
  · simp [none]
  · exact ((List.forall₂_and_left _ _).mp (callers.flip.imp fun caller item read =>
      And.intro (Caller.IsReadFrom.valid read) read)).1

theorem keepsRecords : KeepsRecords toJson ofJson HasValidTypes :=
  .of_written (fun _ valid => ofJson_eq_ok_iff.mpr (isReadFrom_toJson valid))
    fun _ _ read => (ofJson_eq_ok_iff.mp read).hasValidTypes

end CallChain

/-! ## Capabilities -/

namespace Capability

variable (capability : Capability)

/-- Reading takes metadata that were left out for what they are, which is empty. -/
theorem listIfPresent_toJson :
    capability.toJson.listIfPresent "metadata" Json.asTextFields = .ok capability.metadata := by
  have written : capability.toJson.get? "metadata" =
      if capability.metadata.isEmpty then none
      else some (.ofTextFields capability.metadata) := by
    simp only [toJson, Json.get?_object]
    split <;> simp [Fields.find?]
  rw [Json.listIfPresent_eq_ok_iff]
  by_cases empty : capability.metadata.isEmpty
  · rw [if_pos empty] at written
    exact .inl ⟨by simp [Json.present?, written], List.isEmpty_iff.mp empty⟩
  · rw [if_neg empty] at written
    exact .inr ⟨_, Json.present?_of_get? written Bool.false_ne_true, Json.asTextFields_ofTextFields _⟩

theorem ofJson_toJson : ofJson capability.toJson = .ok capability := by
  have name : capability.toJson.requiredText "name" = .ok capability.name :=
    Json.requiredText_eq_ok_iff.mpr (by simp [toJson, Json.get?_object, Fields.find?])
  have version : capability.toJson.requiredText "version" = .ok capability.version :=
    Json.requiredText_eq_ok_iff.mpr (by simp [toJson, Json.get?_object, Fields.find?])
  have description : capability.toJson.optionalText "description" = .ok capability.description := by
    simp [Json.optionalText, toJson, Json.get?_object, Fields.find?, Json.asText]
  simp [ofJson, name, version, description, capability.listIfPresent_toJson, bind, Except.bind,
    pure, Except.pure]

theorem keepsRecords : KeepsRecords toJson ofJson fun _ => True :=
  .of_written (fun capability _ => capability.ofJson_toJson) fun _ _ _ => trivial

end Capability

/-- Reading keeps all capabilities, with any texts and metadata, and the call chains of any
length in which all identity types are valid, with their callers and types; and it reads
no other chains. -/
theorem json_keeps_capabilities_and_callChains :
    KeepsRecords Capability.toJson Capability.ofJson (fun _ => True) ∧
      KeepsRecords CallChain.toJson CallChain.ofJson CallChain.HasValidTypes ∧
      KeepsRecords Caller.toJson Caller.ofJson (fun caller => caller.identityType.isValid) ∧
      KeepsRecords IdentityType.toJson IdentityType.ofJson (fun type => type.isValid) :=
  ⟨Capability.keepsRecords, CallChain.keepsRecords, Caller.keepsRecords,
    IdentityType.keepsRecords⟩

/-- A chain as a terse client writes it, with a key that no chain has, is read as one that
nobody has forwarded. -/
example :
    CallChain.ofJson (.obj [("callers", .null), ("hops", .int 0), ("original_id", .str "user-1"),
      ("original_type", .str "user")]) = .ok ⟨"user-1", .user, []⟩ := rfl

end AgentKit
