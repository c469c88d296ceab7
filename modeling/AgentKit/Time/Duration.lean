/-
# Durations

A duration is a signed 64-bit count of milliseconds. Its text is either a plain
integer, taken as milliseconds, or a sequence of segments, each of them an
amount followed by a unit: milliseconds, seconds, minutes or hours. Segments
add up in any order.
-/

import AgentKit.Error.Basic
import AgentKit.Number.Format

namespace AgentKit.Duration

/-- The units of a segment. -/
inductive TimeUnit
  | milliseconds
  | seconds
  | minutes
  | hours
  deriving DecidableEq

namespace TimeUnit

/-- The milliseconds in one unit. -/
def millis : TimeUnit → Int
  | milliseconds => 1
  | seconds => 1000
  | minutes => 60000
  | hours => 3600000

/-- The unit with a name; names are in lower case. -/
def ofName? (name : List Char) : Option TimeUnit :=
  if name = ['m', 's'] then some milliseconds
  else if name = ['s'] then some seconds
  else if name = ['m'] then some minutes
  else if name = ['h'] then some hours
  else none

end TimeUnit

/-- How a sequence of segments can fail. -/
inductive Failure
  | malformed
  | unknownUnit (name : String)
  deriving DecidableEq

/-- The first segment of a text and what follows it: the amount is the longest
run of digits, the unit's name the longest run of letters after it. -/
def splitSegment (cs : List Char) : List Char × List Char × List Char :=
  let (amount, rest) := cs.span Char.isDigit
  let (unit, rest) := rest.span Char.isAlpha
  (amount, unit, rest)

/-- The milliseconds of one segment. -/
def segmentMillis (amount unit : List Char) : Except Failure Int :=
  if amount.isEmpty || unit.isEmpty then .error .malformed
  else
    match IntFormat.int64.read? amount with
    | none => .error .malformed
    | some count =>
      match TimeUnit.ofName? unit with
      | none => .error (.unknownUnit (String.ofList unit))
      | some unit => .ok (wrap64 (count * unit.millis))

/-- Adds the segments of a text to `total`. Every segment takes at least one
character, so as many rounds as there are characters suffice. -/
def sumSegments : (rounds : Nat) → (total : Int) → List Char → Except Failure Int
  | _, total, [] => .ok total
  | 0, _, _ => .error .malformed
  | rounds + 1, total, cs =>
    let (amount, unit, rest) := splitSegment cs
    match segmentMillis amount unit with
    | .error failure => .error failure
    | .ok millis => sumSegments rounds (wrap64 (total + millis)) rest

/-- The milliseconds that the characters of a duration denote. -/
def readChars (cs : List Char) : Except Failure Int :=
  if cs.isEmpty then .error .malformed
  else
    match IntFormat.int64.read? cs with
    | some millis => .ok millis
    | none => sumSegments cs.length 0 cs

/-- The milliseconds that a text denotes, or an error that names the text. -/
def parse (text : String) : Except Error Int :=
  match readChars text.toList with
  | .ok millis => .ok millis
  | .error .malformed =>
    .error (.make .validationFormat ("cannot parse duration " ++ Text.quoted text))
  | .error (.unknownUnit name) =>
    .error (.make .validationFormat
      ("unknown duration unit " ++ Text.quoted name ++ " in " ++ Text.quoted text))

end AgentKit.Duration
