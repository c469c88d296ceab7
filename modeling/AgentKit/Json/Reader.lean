/-
# Reading JSON

A text is first cut into tokens, and the tokens are then read one after the
other while the containers that are still open are kept on a stack. A number
without point and exponent that fits 64 bits, unsigned, or signed after a minus
sign, is an integer; every other number is a floating-point number, an infinite one
if it is too large. A text is refused as a whole or read as a whole.

This is one reader of JSON among others; settings can be loaded with any.
-/

import AgentKit.Json.Basic
import AgentKit.Number.Binary64Text
import AgentKit.Number.Format

namespace AgentKit.Json

/-- The pieces a JSON text is made of. -/
inductive Token
  | beginObject
  | endObject
  | beginArray
  | endArray
  | colon
  | comma
  | text (value : String)
  | scalar (value : Json)

/-! ## Tokens -/

/-- Blanks between tokens; fewer than in other texts. -/
def isJsonBlank (c : Char) : Bool :=
  c = ' ' || c = '\n' || c = '\r' || c = '\t'

/-- The characters that numbers are made of. -/
def isNumberChar (c : Char) : Bool :=
  c.isDigit || c = '-' || c = '+' || c = '.' || c = 'e' || c = 'E'

/-- Whole part of a number: a zero, or digits that start with another digit. -/
def isWholePart : List Char → Bool
  | [] => false
  | ['0'] => true
  | first :: rest => first ≠ '0' && (first :: rest).all Char.isDigit

/-- Whether an unsigned text has the form of a JSON number. -/
def isNumberForm (cs : List Char) : Bool :=
  let (whole, rest) := cs.span Char.isDigit
  let fractionEnds : Option (List Char) :=
    match rest with
    | '.' :: fraction =>
      let (digits, rest) := fraction.span Char.isDigit
      if digits.isEmpty then none else some rest
    | rest => some rest
  let exponentFits : List Char → Bool
    | [] => true
    | letter :: exponent =>
      (letter = 'e' || letter = 'E') && (Binary64.readExponent? exponent).isSome
  isWholePart whole && fractionEnds.any exponentFits

/-- The value of a number token. -/
def readNumber? (cs : List Char) : Option Json :=
  let (negative, magnitude) :=
    match cs with
    | '-' :: rest => (true, rest)
    | rest => (false, rest)
  if !isNumberForm magnitude then none
  else
    let format := if negative then IntFormat.int64 else IntFormat.uint64
    match format.read? cs with
    | some n => some (int n)
    | none => (Binary64.readDecimal? negative magnitude).map float

/-- Four hexadecimal digits and what follows them. -/
def readUnit? : List Char → Option (Nat × List Char)
  | a :: b :: c :: d :: rest => do
    let a ← Text.hexDigit? a
    let b ← Text.hexDigit? b
    let c ← Text.hexDigit? c
    let d ← Text.hexDigit? d
    return (((a * 16 + b) * 16 + c) * 16 + d, rest)
  | _ => none

/-- The character of a `u` escape after its letter, and what follows it. A
character outside the basic plane is written as two units, and no unit of such
a pair stands alone. -/
def readEscapedUnit? (cs : List Char) : Option (Char × List Char) := do
  let (high, rest) ← readUnit? cs
  if 0xdc00 ≤ high && high ≤ 0xdfff then none
  else if 0xd800 ≤ high && high ≤ 0xdbff then
    match rest with
    | '\\' :: 'u' :: rest =>
      let (low, rest) ← readUnit? rest
      if 0xdc00 ≤ low && low ≤ 0xdfff then
        some (Char.ofNat (0x10000 + (high - 0xd800) * 0x400 + (low - 0xdc00)), rest)
      else none
    | _ => none
  else some (Char.ofNat high, rest)

/-- The character that a one-letter escape stands for. -/
def simpleEscape? (c : Char) : Option Char :=
  if c = '"' || c = '\\' || c = '/' then some c
  else if c = 'b' then some '\x08'
  else if c = 'f' then some '\x0c'
  else if c = 'n' then some '\n'
  else if c = 'r' then some '\r'
  else if c = 't' then some '\t'
  else none

/-- The rest of a quoted text after its opening quote, and what follows the
closing one. Each round takes at least one character, so as many rounds as
there are characters suffice. -/
def readText? : (rounds : Nat) → (done : List Char) → List Char → Option (String × List Char)
  | 0, _, _ => none
  | _, _, [] => none
  | rounds + 1, done, c :: rest =>
    if c = '"' then some (String.ofList done.reverse, rest)
    else if c = '\\' then
      match rest with
      | 'u' :: rest =>
        match readEscapedUnit? rest with
        | some (escaped, rest) => readText? rounds (escaped :: done) rest
        | none => none
      | letter :: rest =>
        match simpleEscape? letter with
        | some escaped => readText? rounds (escaped :: done) rest
        | none => none
      | [] => none
    else if c.toNat < 32 then none
    else readText? rounds (c :: done) rest

/-- The first token of a text that starts with none of the JSON blanks, and
what follows it. -/
def readToken? (first : Char) (rest : List Char) : Option (Token × List Char) :=
  if first = '\x7b' then some (.beginObject, rest)
  else if first = '\x7d' then some (.endObject, rest)
  else if first = '[' then some (.beginArray, rest)
  else if first = ']' then some (.endArray, rest)
  else if first = ':' then some (.colon, rest)
  else if first = ',' then some (.comma, rest)
  else if first = '"' then
    (readText? rest.length [] rest).map fun (value, rest) => (.text value, rest)
  else if isNumberChar first then
    let (digits, rest) := (first :: rest).span isNumberChar
    (readNumber? digits).map fun value => (.scalar value, rest)
  else
    let (letters, rest) := (first :: rest).span Char.isAlpha
    if letters = ['n', 'u', 'l', 'l'] then some (.scalar .null, rest)
    else if letters = ['t', 'r', 'u', 'e'] then some (.scalar (.bool true), rest)
    else if letters = ['f', 'a', 'l', 's', 'e'] then some (.scalar (.bool false), rest)
    else none

/-- All tokens of a text, in order. -/
def tokens? : (rounds : Nat) → (done : List Token) → List Char → Option (List Token)
  | _, done, [] => some done.reverse
  | 0, _, _ => none
  | rounds + 1, done, c :: rest =>
    if isJsonBlank c then tokens? rounds done rest
    else
      match readToken? c rest with
      | some (token, rest) => tokens? rounds (token :: done) rest
      | none => none

/-! ## Values -/

/-- A container that is still open: the items of an array, last one first, the
fields of an object, or these fields and the key whose value is being read. -/
inductive OpenContainer
  | items (reversed : List Json)
  | fields (fields : List (String × Json))
  | field (key : String) (fields : List (String × Json))

/-- What may come next. -/
inductive Expectation
  | value
  | itemOrEnd
  | keyOrEnd
  | key
  | colon (key : String)
  | separator
  | nothing (result : Json)

/-- A value that has been read up to some token. -/
structure PartialValue where
  containers : List OpenContainer
  expected : Expectation

namespace PartialValue

/-- Puts a finished value where it belongs. -/
def place (value : Json) : List OpenContainer → PartialValue
  | .items reversed :: outer => ⟨.items (value :: reversed) :: outer, .separator⟩
  | .field key fields :: outer => ⟨.fields (Fields.insert key value fields) :: outer, .separator⟩
  | containers => ⟨containers, .nothing value⟩

/-- Reads a token where a value may start. -/
def startValue (containers : List OpenContainer) : Token → Option PartialValue
  | .beginObject => some ⟨.fields [] :: containers, .keyOrEnd⟩
  | .beginArray => some ⟨.items [] :: containers, .itemOrEnd⟩
  | .text value => some (place (.str value) containers)
  | .scalar value => some (place value containers)
  | _ => none

/-- Closes the innermost container. -/
def close : Token → List OpenContainer → Option PartialValue
  | .endObject, .fields fields :: outer => some (place (.obj fields) outer)
  | .endArray, .items reversed :: outer => some (place (.arr reversed.reverse) outer)
  | _, _ => none

/-- Reads one token. -/
def next (state : PartialValue) (token : Token) : Option PartialValue :=
  match state.expected, token, state.containers with
  | .value, _, containers => startValue containers token
  | .itemOrEnd, .endArray, containers => close token containers
  | .itemOrEnd, _, containers => startValue containers token
  | .keyOrEnd, .endObject, containers => close token containers
  | .keyOrEnd, .text key, containers => some ⟨containers, .colon key⟩
  | .key, .text key, containers => some ⟨containers, .colon key⟩
  | .colon key, .colon, .fields fields :: outer => some ⟨.field key fields :: outer, .value⟩
  | .separator, .comma, .items reversed :: outer => some ⟨.items reversed :: outer, .value⟩
  | .separator, .comma, .fields fields :: outer => some ⟨.fields fields :: outer, .key⟩
  | .separator, _, containers => close token containers
  | _, _, _ => none

end PartialValue

/-- The value a text denotes, if it is a JSON text. -/
def parse? (text : String) : Option Json := do
  let chars := text.toList
  let tokens ← tokens? chars.length [] chars
  let state ← tokens.foldlM PartialValue.next ⟨[], .value⟩
  match state.expected with
  | .nothing result => some result
  | _ => none

end AgentKit.Json
