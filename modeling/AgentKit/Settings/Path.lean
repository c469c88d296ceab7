/-
# Dotted paths

A dotted path leads from a JSON object through nested objects to a value. Every
dot ends a key, so a path always has one key more than it has dots, and keys
may be empty. The path is followed while it is read; it leads nowhere as soon
as the value reached is no object or lacks the key.
-/

import AgentKit.Json.Basic

namespace AgentKit.Json

/-- Follows the rest of a path from a value, with the characters of the current
key already read, last one first. -/
def follow (value : Json) (key : List Char) : List Char → Option Json
  | [] => value.get? (String.ofList key.reverse)
  | c :: rest =>
    if c = '.' then
      match value.get? (String.ofList key.reverse) with
      | some next => follow next [] rest
      | none => none
    else follow value (c :: key) rest

/-- The value at the end of a dotted path. -/
def atPath? (root : Json) (path : String) : Option Json :=
  root.follow [] path.toList

end AgentKit.Json
