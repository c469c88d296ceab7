/-
# Values of settings

A setting has one of six kinds, and its value comes either as text, from the
environment or a default, or as JSON, from a file. Each kind has one reader for
either form. A reader takes the form as a whole or refuses it with a message;
the two readers of a kind agree where both apply. Every kind has an empty value,
with which settings start.
-/

import AgentKit.Json.Printer
import AgentKit.Number.Binary64Text
import AgentKit.Number.Stored
import AgentKit.Time.Duration

namespace AgentKit

/-- The kinds of settings. -/
inductive SettingKind
  | text
  | flag
  | number
  | integer (format : IntFormat)
  | duration
  | list
  deriving DecidableEq

namespace SettingKind

/-- The values of a kind. Durations are in milliseconds. -/
def Value : SettingKind → Type
  | text => String
  | flag => Bool
  | number => Binary64
  | integer _ => Int
  | duration => Int
  | list => List String

instance : (kind : SettingKind) → DecidableEq kind.Value
  | text => inferInstanceAs (DecidableEq String)
  | flag => inferInstanceAs (DecidableEq Bool)
  | number => inferInstanceAs (DecidableEq Binary64)
  | integer _ => inferInstanceAs (DecidableEq Int)
  | duration => inferInstanceAs (DecidableEq Int)
  | list => inferInstanceAs (DecidableEq (List String))

/-- The value that settings start with. -/
def empty : (kind : SettingKind) → kind.Value
  | text => ""
  | flag => false
  | number => Binary64.zero
  | integer _ => (0 : Int)
  | duration => (0 : Int)
  | list => ([] : List String)

/-- Whether a value equals the one that settings start with. Both zeros of the
floating-point numbers do. -/
def isEmpty : (kind : SettingKind) → kind.Value → Bool
  | text, value => String.isEmpty value
  | flag, value => !value
  | number, value => Binary64.isZero value
  | integer _, value => decide ((show Int from value) = 0)
  | duration, value => decide ((show Int from value) = 0)
  | list, value => List.isEmpty value

/-- A value of the wrong form. -/
def misfit {α : Type} (message : String) : Except Error α :=
  .error (.make .validationFormat message)

/-! ## From text -/

/-- The spellings of true. -/
def trueSpellings : List String := ["1", "t", "T", "true", "TRUE", "True"]

/-- The spellings of false. -/
def falseSpellings : List String := ["0", "f", "F", "false", "FALSE", "False"]

/-- A flag in one of its spellings. -/
def readFlag (source : String) : Except Error Bool :=
  if trueSpellings.contains source then .ok true
  else if falseSpellings.contains source then .ok false
  else misfit ("cannot parse bool " ++ Text.quoted source)

/-- A number in decimal or hexadecimal. -/
def readNumber (source : String) : Except Error Binary64 :=
  match Binary64.read? source.toList with
  | some value => .ok value
  | none => misfit ("cannot parse number " ++ Text.quoted source)

/-- An integer of a format in decimal. -/
def readInteger (format : IntFormat) (source : String) : Except Error Int :=
  match format.read? source.toList with
  | some value => .ok value
  | none => misfit ("cannot parse integer " ++ Text.quoted source)

/-- The value that a text denotes. -/
def ofText : (kind : SettingKind) → String → Except Error kind.Value
  | text, source => .ok source
  | flag, source => readFlag source
  | number, source => readNumber source
  | integer format, source => readInteger format source
  | duration, source => Duration.parse source
  | list, source => .ok (Text.commaItems source)

/-! ## From JSON -/

/-- A JSON value of another kind than the setting wants. -/
def unexpected {α : Type} (wanted : String) (value : Json) : Except Error α :=
  misfit ("expected " ++ wanted ++ ", got " ++ value.kindName)

/-- An integer of a format as a stored integer. -/
def integerOfStored (format : IntFormat) (stored : StoredInt) : Except Error Int :=
  if format.admits stored then .ok (format.narrow stored.value)
  else misfit ("integer " ++ (Json.int stored.value).render ++ " out of range")

/-- An integer of a format as a JSON integer; floating-point numbers are none,
whatever their value. -/
def integerOfJson (format : IntFormat) : Json → Except Error Int
  | .int value => integerOfStored format (.ofInt value)
  | value => unexpected "integer" value

/-- A duration as an integer of milliseconds or as a text. -/
def durationOfJson : Json → Except Error Int
  | .int value => .ok (wrap64 value)
  | .str source => Duration.parse source
  | value => unexpected "duration" value

/-- The texts of a list of texts. -/
def textItems? (items : List Json) : Option (List String) :=
  items.mapM fun
    | .str item => some item
    | _ => none

/-- A list as an array of texts. -/
def listOfJson : Json → Except Error (List String)
  | .arr items =>
    match textItems? items with
    | some texts => .ok texts
    | none => misfit "expected array of strings"
  | value => unexpected "array" value

/-- A number as any JSON number. -/
def numberOfJson : Json → Except Error Binary64
  | .int value => .ok (Binary64.ofInt value)
  | .float value => .ok value
  | value => unexpected "number" value

/-- A flag as a JSON truth value. -/
def flagOfJson : Json → Except Error Bool
  | .bool value => .ok value
  | value => unexpected "boolean" value

/-- A text as a JSON text. -/
def textOfJson : Json → Except Error String
  | .str value => .ok value
  | value => unexpected "string" value

/-- The value that a JSON value denotes. -/
def ofJson : (kind : SettingKind) → Json → Except Error kind.Value
  | text, source => textOfJson source
  | flag, source => flagOfJson source
  | number, source => numberOfJson source
  | integer format, source => integerOfJson format source
  | duration, source => durationOfJson source
  | list, source => listOfJson source

end SettingKind

end AgentKit
