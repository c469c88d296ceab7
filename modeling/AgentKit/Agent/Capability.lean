/-
# Capabilities

A capability is something an agent can do, with the version of its contract. It
needs a name and a version; its description and its metadata, a table of texts,
may be empty.
-/

import AgentKit.Error.Basic
import AgentKit.Json.Decode

namespace AgentKit

/-- A named and versioned ability of an agent. -/
structure Capability where
  name : String
  version : String
  description : String := ""
  metadata : List (String × String) := []
  deriving DecidableEq

namespace Capability

/-- A capability needs a name and a version; the name is checked first. -/
def validate (capability : Capability) : Except Error Unit :=
  if capability.name.isEmpty then
    .error (.make .validation "lifecycle: capability name must not be empty")
  else if capability.version.isEmpty then
    .error (.make .validation
      ("lifecycle: capability " ++ Text.quoted capability.name ++ " version must not be empty"))
  else .ok ()

/-- A capability that has been validated. -/
def create (name version description : String) (metadata : List (String × String)) :
    Except Error Capability :=
  let capability : Capability := { name, version, description, metadata }
  capability.validate.map fun () => capability

/-- A copy, made field by field. -/
def clone (capability : Capability) : Capability :=
  { name := capability.name
    version := capability.version
    description := capability.description
    metadata := if capability.metadata.isEmpty then [] else capability.metadata }

@[simp]
theorem clone_eq (capability : Capability) : capability.clone = capability := by
  cases capability with
  | mk name version description metadata => cases metadata <;> rfl

/-- Checks capabilities in order and copies each of them; the first fault is reported. -/
def copyChecked (capabilities : List Capability) : Except Error (List Capability) :=
  capabilities.mapM fun capability => do
    capability.validate
    return capability.clone

theorem copyChecked_cons (capability : Capability) (capabilities : List Capability) :
    copyChecked (capability :: capabilities) =
      capability.validate.bind fun () => (copyChecked capabilities).map (capability :: ·) := by
  rw [copyChecked, List.mapM_cons, clone_eq]
  cases capability.validate <;> rfl

/-- Copies are what they were made from, and they are made if nothing is at fault. -/
theorem copyChecked_eq_ok_iff {capabilities copies : List Capability} :
    copyChecked capabilities = .ok copies
      ↔ copies = capabilities ∧ ∀ capability ∈ capabilities, capability.validate = .ok () := by
  induction capabilities generalizing copies with
  | nil => simp [copyChecked, pure, Except.pure, eq_comm]
  | cons capability capabilities ih =>
      rw [copyChecked_cons, List.forall_mem_cons]
      cases valid : capability.validate with
      | error error => simp [Except.bind]
      | ok _ =>
          cases checked : copyChecked capabilities with
          | error error =>
              have faulty := @ih capabilities
              simp only [checked, reduceCtorEq, true_and, false_iff] at faulty
              simp [Except.bind, Except.map, faulty]
          | ok others =>
              obtain ⟨rfl, faultless⟩ := ih.mp checked
              simp only [Except.bind, Except.map, Except.ok.injEq, true_and]
              exact ⟨fun same => ⟨same.symm, faultless⟩, fun same => same.1.symm⟩

/-- The capability with one more piece of metadata. -/
def withMetadata (capability : Capability) (key value : String) : Capability :=
  { capability with metadata := Fields.insert key value capability.metadata }

/-- A capability as JSON. Metadata is left out if there is none. -/
def toJson (capability : Capability) : Json :=
  .object
    ([("name", .str capability.name), ("version", .str capability.version),
      ("description", .str capability.description)]
    ++ if capability.metadata.isEmpty then []
      else [("metadata", .ofTextFields capability.metadata)])

/-- Reads a capability. Description and metadata may be absent, metadata also
null. -/
def ofJson (value : Json) : Decoded Capability := do
  let name ← value.requiredText "name"
  let version ← value.requiredText "version"
  let description ← value.optionalText "description"
  let metadata ← value.listIfPresent "metadata" Json.asTextFields
  return { name, version, description, metadata }

end Capability

end AgentKit
