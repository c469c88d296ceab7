/-
# Timestamps

An instant is a signed 64-bit count of nanoseconds since the beginning of 1970,
UTC. Its text is the date and time of its second, a point, three digits of
milliseconds and a `Z`. Both parts of an instant are cut toward zero, so
before 1970 the milliseconds carry a minus sign of their own.

The reader wants the date and time in nineteen characters. Inside them it is
lenient in the way of a field-wise scanner: each number may start with blanks,
which its width does not count, and with a sign, which it does. A day past the
month's end and a sixtieth second run over into what follows them.
-/

import AgentKit.Error.Basic
import AgentKit.Number.Format
import AgentKit.Time.Calendar

namespace AgentKit

/-- A point in time in nanoseconds since the beginning of 1970, UTC. -/
structure Instant where
  nanos : Int
  deriving DecidableEq

namespace Instant

/-- The beginning of 1970, which also stands for a time that is not set. -/
def epoch : Instant := ⟨0⟩

def nanosPerMilli : Int := 1000000

def nanosPerSecond : Int := 1000000000

def secondsPerDay : Int := 86400

/-- The instant cut to whole milliseconds, toward the epoch. -/
def cutToMillis (time : Instant) : Instant :=
  ⟨time.nanos.tdiv nanosPerMilli * nanosPerMilli⟩

/-- The whole milliseconds from one instant to another. -/
def millisUntil (start finish : Instant) : Int :=
  (wrap64 (finish.nanos - start.nanos)).tdiv nanosPerMilli

/-! ## Writing -/

/-- A natural number in exactly two digits. -/
def twoDigits (n : Int) : List Char :=
  Text.fixedDigits 2 n.toNat

/-- The date and time of a number of seconds since the epoch, in nineteen
characters. -/
def renderSecond (seconds : Int) : List Char :=
  let date := CivilDate.ofDayNumber (seconds / secondsPerDay)
  let rest := seconds % secondsPerDay
  Text.fixedDigits 4 date.year.toNat ++ '-' :: twoDigits date.month ++ '-' :: twoDigits date.day
    ++ 'T' :: twoDigits (rest / 3600) ++ ':' :: twoDigits (rest / 60 % 60)
    ++ ':' :: twoDigits (rest % 60)

/-- Milliseconds in three characters or more: a minus sign is one of the
three. -/
def renderMillis (millis : Int) : List Char :=
  if 0 ≤ millis then Text.fixedDigits 3 millis.toNat
  else if -100 < millis then '-' :: Text.fixedDigits 2 (-millis).toNat
  else '-' :: Text.fixedDigits 3 (-millis).toNat

/-- The characters of an instant's text. -/
def renderChars (time : Instant) : List Char :=
  let seconds := time.nanos.tdiv nanosPerSecond
  let millis := (time.nanos.tmod nanosPerSecond).tdiv nanosPerMilli
  renderSecond seconds ++ '.' :: renderMillis millis ++ ['Z']

/-- The text of an instant with millisecond precision. -/
def render (time : Instant) : String :=
  String.ofList time.renderChars

/-! ## Reading -/

/-- A number of at most `width` digits, and what follows it. At least one digit is
needed. -/
def scanDigits? (width : Nat) (cs : List Char) : Option (Nat × List Char) :=
  let digits := (cs.take width).takeWhile Char.isDigit
  if digits.isEmpty then none else some (Text.natOfDigits digits, cs.drop digits.length)

/-- A number of at most `width` characters after blanks, and what follows it. A
sign counts as one of the characters. -/
def scanNumber? (width : Nat) (cs : List Char) : Option (Int × List Char) :=
  match cs.dropWhile Text.isBlank with
  | '-' :: rest => (scanDigits? (width - 1) rest).map fun (n, rest) => (-(n : Int), rest)
  | '+' :: rest => (scanDigits? (width - 1) rest).map fun (n, rest) => ((n : Int), rest)
  | rest => (scanDigits? width rest).map fun (n, rest) => ((n : Int), rest)

/-- One given character, and what follows it. -/
def scanChar? (expected : Char) : List Char → Option (List Char)
  | c :: rest => if c = expected then some rest else none
  | [] => none

/-- The numbers of a date and time. -/
structure Fields where
  year : Int
  month : Int
  day : Int
  hour : Int
  minute : Int
  second : Int
  deriving DecidableEq

/-- The date and time at the start of a text, and what follows it. -/
def scanFields? (cs : List Char) : Option (Fields × List Char) := do
  let (year, cs) ← scanNumber? 4 cs
  let cs ← scanChar? '-' cs
  let (month, cs) ← scanNumber? 2 cs
  let cs ← scanChar? '-' cs
  let (day, cs) ← scanNumber? 2 cs
  let cs ← scanChar? 'T' cs
  let (hour, cs) ← scanNumber? 2 cs
  let cs ← scanChar? ':' cs
  let (minute, cs) ← scanNumber? 2 cs
  let cs ← scanChar? ':' cs
  let (second, cs) ← scanNumber? 2 cs
  return (⟨year, month, day, hour, minute, second⟩, cs)

/-- The ranges of the numbers, whatever the month. A minute may have a sixtieth
second. -/
def Fields.inRange (fields : Fields) : Bool :=
  1 ≤ fields.month && fields.month ≤ 12 && 1 ≤ fields.day && fields.day ≤ 31
    && 0 ≤ fields.hour && fields.hour ≤ 23 && 0 ≤ fields.minute && fields.minute ≤ 59
    && 0 ≤ fields.second && fields.second ≤ 60

/-- The seconds since the epoch of a date and time. -/
def Fields.seconds (fields : Fields) : Int :=
  CivilDate.dayNumber ⟨fields.year, fields.month, fields.day⟩ * secondsPerDay
    + fields.hour * 3600 + fields.minute * 60 + fields.second

/-- The milliseconds of an optional fraction, and what follows it. A fraction
has at least one digit; those after the third have no influence. -/
def scanFraction? : List Char → Option (Int × List Char)
  | '.' :: rest =>
    let digits := rest.takeWhile Char.isDigit
    if digits.isEmpty then none
    else
      let firstThree := (digits ++ ['0', '0']).take 3
      some (Text.natOfDigits firstThree, rest.drop digits.length)
  | cs => some (0, cs)

/-- The nanoseconds since the epoch that the characters of a timestamp denote,
however many they are. -/
def readNanos? (cs : List Char) : Option Int := do
  let (fields, rest) ← scanFields? cs
  if cs.length - rest.length ≠ 19 || !fields.inRange then none
  else
    let (millis, rest) ← scanFraction? rest
    if rest = ['Z'] || rest = ['z'] then
      some (fields.seconds * nanosPerSecond + millis * nanosPerMilli)
    else none

/-- The instant that the characters of a timestamp denote. The count of its
nanoseconds wraps around if it is too large. -/
def readChars? (cs : List Char) : Option Instant :=
  (readNanos? cs).map fun nanos => ⟨wrap64 nanos⟩

/-- The instant that a timestamp denotes, or an error that names the text. -/
def parse (text : String) : Except Error Instant :=
  match readChars? text.toList with
  | some time => .ok time
  | none =>
    .error (.make .validationFormat ("invalid RFC 3339 UTC timestamp " ++ Text.quoted text))

end Instant

end AgentKit
