/-
# Reading records from JSON

A record is read field by field, and the first field that cannot be read
decides how reading fails. There are two ways: the value does not have the
shape that is asked for, which carries no text, or it has a text that denotes
nothing, which says so. Where a floating-point number is converted to an integer
that cannot hold it, there is no telling what is read.
-/

import AgentKit.Json.Basic

namespace AgentKit

/-- Why a JSON value is not the record it was read as. -/
inductive DecodeError
  | shape
  | invalid (text : String)
  | undefined
  deriving DecidableEq

/-- The result of reading a record. -/
abbrev Decoded := Except DecodeError

namespace DecodeError

/-- The text of a failure that has one. -/
def text? : DecodeError → Option String
  | shape => none
  | invalid text => some (Text.untilNul text)
  | undefined => none

end DecodeError

namespace Json

/-- A text. -/
def asText : Json → Decoded String
  | str value => .ok value
  | _ => .error .shape

/-- A 32-bit integer, as everything that counts as a number is converted to one: an
integer keeps its low bits, a truth value counts as zero or one, and a floating-point
number loses its fraction. The conversion of one whose whole part needs more bits is
not defined. -/
def asInt32 : Json → Decoded Int
  | int value => .ok (wrap32 value)
  | bool value => .ok (if value then 1 else 0)
  | float value =>
    match value.wholePart?.filter IntFormat.int32.holds with
    | some n => .ok n
    | none => .error .undefined
  | _ => .error .shape

/-- The items of an array. -/
def asItems : Json → Decoded (List Json)
  | arr items => .ok items
  | _ => .error .shape

/-- The fields of an object. -/
def asFields : Json → Decoded (List (String × Json))
  | obj fields => .ok fields
  | _ => .error .shape

/-- A table of texts. -/
def ofTextFields (fields : List (String × String)) : Json :=
  .obj (fields.map fun (key, text) => (key, .str text))

/-- An object whose values are all texts. -/
def asTextFields (value : Json) : Decoded (List (String × String)) := do
  (← value.asFields).mapM fun (key, item) => do return (key, ← item.asText)

/-- The value under a key that has to be there. -/
def required (value : Json) (key : String) : Decoded Json :=
  match value.get? key with
  | some field => .ok field
  | none => .error .shape

/-- The text under a key that has to be there. -/
def requiredText (value : Json) (key : String) : Decoded String := do
  (← value.required key).asText

/-- The text under a key, empty if the key is absent. -/
def optionalText (value : Json) (key : String) : Decoded String :=
  match value.get? key with
  | some field => field.asText
  | none => .ok ""

/-- The value under a key, unless it is absent or null. -/
def present? (value : Json) (key : String) : Option Json :=
  (value.get? key).filter fun field => !field.isNull

/-- What is read of the value under a key. Nothing is read of a value that is absent or
null. -/
def listIfPresent {α : Type} (value : Json) (key : String) (read : Json → Decoded (List α)) :
    Decoded (List α) :=
  match value.present? key with
  | some field => read field
  | none => .ok []

end Json

end AgentKit
