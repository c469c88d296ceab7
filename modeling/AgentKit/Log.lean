/-
# Logging

A logger is configured by names: a level and a format, each from a fixed list,
and the name under which it reports. Names of levels and formats are
case-sensitive.
-/

import AgentKit.Error.Basic

namespace AgentKit

/-- The levels of log records, in rising order of importance; `off` lets nothing
pass. -/
inductive LogLevel
  | trace
  | debug
  | info
  | warn
  | error
  | critical
  | off
  deriving DecidableEq

namespace LogLevel

/-- The number of a level. -/
def number : LogLevel → Nat
  | trace => 0
  | debug => 1
  | info => 2
  | warn => 3
  | error => 4
  | critical => 5
  | off => 6

/-- The level with a name; two of them have a second name. -/
def ofName? (name : String) : Option LogLevel :=
  if name = "trace" then some trace
  else if name = "debug" then some debug
  else if name = "info" then some info
  else if name = "warn" || name = "warning" then some warn
  else if name = "error" || name = "err" then some error
  else if name = "critical" then some critical
  else if name = "off" then some off
  else none

/-- The level with a name, or an error that names the text. -/
def parse (name : String) : Except Error LogLevel :=
  match ofName? name with
  | some level => .ok level
  | none => .error (.make .validationFormat ("log: unknown level " ++ Text.quoted name))

end LogLevel

/-- The forms of log records. -/
inductive LogFormat
  | text
  | json
  deriving DecidableEq

namespace LogFormat

/-- The format with a name, or an error that names the text. -/
def parse (name : String) : Except Error LogFormat :=
  if name = "text" then .ok text
  else if name = "json" then .ok json
  else
    .error (.make .validationFormat
      ("log: unknown format " ++ Text.quoted name ++ " (use text or json)"))

end LogFormat

/-- The settings of a logger, by name. -/
structure LogSettings where
  level : String := "info"
  format : String := "text"
  name : String := "keel"
  deriving DecidableEq

/-- A logger: what it lets pass, how it writes and how it is called. -/
structure Logger where
  name : String
  level : LogLevel
  format : LogFormat
  deriving DecidableEq

/-- The logger that settings describe. An unknown level is reported before an
unknown format. -/
def LogSettings.logger (settings : LogSettings) : Except Error Logger := do
  let level ← LogLevel.parse settings.level
  let format ← LogFormat.parse settings.format
  return ⟨settings.name, level, format⟩

end AgentKit
