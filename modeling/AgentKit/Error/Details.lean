/-
# Error details

Details tell a caller more than the message, under keys. They are normally an
object, and null counts as an object without fields. Details of another kind
can be set as a whole, but take no further keys.
-/

import AgentKit.Error.Basic
import AgentKit.Json.Decode

namespace AgentKit

namespace Json

/-- The fields that a value has as an object to be extended. -/
def extensibleFields : Json → Decoded (List (String × Json))
  | .obj fields => .ok fields
  | .null => .ok []
  | _ => .error .shape

end Json

namespace Error

/-- Replaces the details as a whole. -/
def setDetails (error : Error) (details : Json) : Error :=
  error.withReport { error.report with details := details }

@[simp]
theorem details_setDetails (error : Error) (details : Json) :
    (error.setDetails details).details = details := by
  cases error <;> rfl

/-- One more detail, in place of an earlier one under the same key. -/
def withDetail (error : Error) (key : String) (value : Json) : Decoded Error := do
  let fields ← error.details.extensibleFields
  return error.setDetails (.obj (Fields.insert key value fields))

/-- The fields of an object laid over the details. Anything but an object with
fields changes nothing, whatever the details are. -/
def withDetails (error : Error) : Json → Decoded Error
  | .obj (field :: extra) => do
    let fields ← error.details.extensibleFields
    return error.setDetails (.obj (Fields.merge fields (field :: extra)))
  | _ => .ok error

end Error

end AgentKit
