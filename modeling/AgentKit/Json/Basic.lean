/-
# JSON values

Numbers are of two kinds that stay apart: integers of at most 64 bits, kept
exactly, and everything else as a 64-bit floating-point number. The fields of
an object stand in the order of their keys.
-/

import AgentKit.Json.Fields
import AgentKit.Number.Binary64
import AgentKit.Number.Format

namespace AgentKit

/-- A JSON value. -/
inductive Json
  | null
  | bool (value : Bool)
  | int (value : Int)
  | float (value : Binary64)
  | str (value : String)
  | arr (items : List Json)
  | obj (fields : List (String × Json))
  deriving Inhabited

namespace Json

/-- The kind of a value as messages name it; both kinds of number have one
name. -/
def kindName : Json → String
  | null => "null"
  | bool _ => "boolean"
  | int _ => "number"
  | float _ => "number"
  | str _ => "string"
  | arr _ => "array"
  | obj _ => "object"

def isNull : Json → Bool
  | null => true
  | _ => false

def isObject : Json → Bool
  | obj _ => true
  | _ => false

/-- The object without fields. -/
def empty : Json := obj []

/-- The object with the given fields, in the order of their keys. -/
def object (fields : List (String × Json)) : Json :=
  obj (Fields.merge [] fields)

/-- The value under a key of an object. -/
def get? (key : String) : Json → Option Json
  | obj fields => Fields.find? key fields
  | _ => none

/-- Of several fields under one key the last one counts. -/
theorem get?_object (key : String) (fields : List (String × Json)) :
    (object fields).get? key = Fields.find? key fields := by
  simp [object, get?, Fields.find?_merge, Fields.find?]

mutual

/-- Equality of values. Two integers are compared as 64-bit counts, so a negative
one equals the unsigned one with the same bits. An integer equals the
floating-point number it rounds to. -/
def same : Json → Json → Bool
  | null, null => true
  | bool a, bool b => a = b
  | int a, int b => wrap64 a = wrap64 b
  | float a, float b => a.same b
  | int a, float b => (Binary64.ofInt a).same b
  | float a, int b => a.same (Binary64.ofInt b)
  | str a, str b => a = b
  | arr a, arr b => sameItems a b
  | obj a, obj b => sameFields a b
  | _, _ => false

/-- Equality of lists of values, item by item. -/
def sameItems : List Json → List Json → Bool
  | [], [] => true
  | a :: as, b :: bs => same a b && sameItems as bs
  | _, _ => false

/-- Equality of lists of fields, field by field in the order of the keys. -/
def sameFields : List (String × Json) → List (String × Json) → Bool
  | [], [] => true
  | (key, a) :: as, (name, b) :: bs => key = name && same a b && sameFields as bs
  | _, _ => false

end

/-- Two numbers have no order if one of them is a NaN. -/
def isUnordered : Json → Json → Bool
  | float a, float b => a.isNaN || b.isNaN
  | float a, int _ => a.isNaN
  | int _, float b => b.isNaN
  | _, _ => false

/-- Whether two values are told to be different. This is not the negation of being the
same: of numbers without an order neither is told. -/
def differs (a b : Json) : Bool :=
  !a.isUnordered b && !a.same b

theorem not_isUnordered_of_isObject {a b : Json} (object : a.isObject) : ¬ a.isUnordered b := by
  cases a with
  | obj fields => simp [isUnordered]
  | _ => cases object

theorem not_differs_iff {a b : Json} : ¬ a.differs b ↔ a.same b ∨ a.isUnordered b := by
  cases same : a.same b <;> simp [differs, same]

/-! ## Sameness -/

variable {fields other : List (String × Json)}

/-- The relation between values that may be missing: both are, or they are the same. -/
abbrev SameIfAny : Option Json → Option Json → Prop :=
  Option.Rel fun value value' => value.same value'

theorem sameFields_cons_iff {field field' : String × Json} :
    sameFields (field :: fields) (field' :: other) ↔
      field.1 = field'.1 ∧ field.2.same field'.2 ∧ sameFields fields other := by
  simp [sameFields, and_assoc]

/-- Lists that are the same have the same keys at the same places, so both are gone through
at once. -/
@[elab_as_elim]
theorem sameFields_induction
    {motive : (fields other : List (String × Json)) → sameFields fields other → Prop}
    (nil : motive [] [] rfl)
    (cons : ∀ (key : String) {value value' : Json} {fields other : List (String × Json)}
      (here : value.same value') (rest : sameFields fields other), motive fields other rest →
      motive ((key, value) :: fields) ((key, value') :: other)
        (sameFields_cons_iff.mpr ⟨rfl, here, rest⟩))
    (same : sameFields fields other) : motive fields other same := by
  induction fields generalizing other with
  | nil =>
      cases other with
      | nil => exact nil
      | cons field' other => simp [sameFields] at same
  | cons field fields ih =>
      cases other with
      | nil => simp [sameFields] at same
      | cons field' other =>
          obtain ⟨key, value⟩ := field
          obtain ⟨key', value'⟩ := field'
          obtain ⟨rfl, here, rest⟩ := sameFields_cons_iff.mp same
          exact cons key here rest (ih rest)

theorem find?_of_sameFields (same : sameFields fields other) (key : String) :
    SameIfAny (Fields.find? key fields) (Fields.find? key other) := by
  induction same using sameFields_induction with
  | nil => exact .none
  | cons name here rest ih =>
      by_cases found : name = key
      · simpa [Fields.find?, found] using here
      · simpa [Fields.find?, found] using ih

theorem sameFields_insert {value value' : Json} (here : value.same value')
    (rest : sameFields fields other) (key : String) :
    sameFields (Fields.insert key value fields) (Fields.insert key value' other) := by
  induction rest using sameFields_induction with
  | nil => exact sameFields_cons_iff.mpr ⟨rfl, here, rfl⟩
  | cons name first more ih =>
      by_cases same : name = key
      · simp [Fields.insert, same, sameFields, here, more]
      · by_cases before : name < key
        · simp [Fields.insert, same, before, sameFields, first, ih]
        · simp [Fields.insert, same, before, sameFields, here, first, more]

theorem sameFields_merge (same : sameFields fields other) :
    sameFields (Fields.merge [] fields) (Fields.merge [] other) := by
  induction same using sameFields_induction with
  | nil => rfl
  | cons key here rest ih => exact sameFields_insert here ih key

/-- Objects with the same fields are the same. -/
theorem same_object (same : sameFields fields other) : (object fields).same (object other) :=
  sameFields_merge same

theorem sameIfAny_get? {json json' : Json} (same : json.same json') (key : String) :
    SameIfAny (json.get? key) (json'.get? key) := by
  cases json with
  | obj fields =>
      cases json' with
      | obj fields' => exact find?_of_sameFields same key
      | _ => cases same
  | _ =>
      cases json' with
      | obj fields' => cases same
      | _ => exact .none

/-- Fields that can be missing are left out of both or of none. -/
theorem sameFields_present_cons {value value' : Option Json}
    {rest rest' : List (String × Option Json)} (here : SameIfAny value value')
    (later : sameFields (Fields.present rest) (Fields.present rest')) (key : String) :
    sameFields (Fields.present ((key, value) :: rest))
      (Fields.present ((key, value') :: rest')) := by
  cases here with
  | none => exact later
  | some same => exact sameFields_cons_iff.mpr ⟨rfl, same, later⟩

end Json

end AgentKit
