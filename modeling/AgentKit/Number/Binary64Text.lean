/-
# Floating-point numbers as text

The text of a floating-point setting is a decimal number with an optional
fraction and exponent, a hexadecimal number with an optional fraction and
binary exponent, an infinity or a NaN, after optional blanks and a sign. The
whole text has to be a number; the one nearest to it is taken.
-/

import AgentKit.Number.Binary64

namespace AgentKit.Binary64

/-- An optionally signed exponent after its letter. -/
def readExponent? : List Char → Option Int
  | '-' :: digits => (Text.decimal? digits).map fun n => -(n : Int)
  | '+' :: digits => (Text.decimal? digits).map fun n => (n : Int)
  | digits => (Text.decimal? digits).map fun n => (n : Int)

/-- The digits before and after an optional point, and what follows them. -/
def splitPoint (isDigit : Char → Bool) (cs : List Char) : List Char × List Char × List Char :=
  let (whole, rest) := cs.span isDigit
  match rest with
  | '.' :: rest =>
    let (fraction, rest) := rest.span isDigit
    (whole, fraction, rest)
  | _ => (whole, [], rest)

/-- An unsigned decimal number. -/
def readDecimal? (negative : Bool) (cs : List Char) : Option Binary64 :=
  let (whole, fraction, rest) := splitPoint Char.isDigit cs
  if whole.isEmpty && fraction.isEmpty then none
  else
    let significand := Text.natOfDigits (whole ++ fraction)
    let number (exponent : Int) := ofScaled 10 3 negative significand (exponent - fraction.length)
    match rest with
    | [] => some (number 0)
    | letter :: exponent =>
      if letter = 'e' || letter = 'E' then (readExponent? exponent).map number else none

/-- An unsigned hexadecimal number, after its `0x`. -/
def readHexadecimal? (negative : Bool) (cs : List Char) : Option Binary64 :=
  let (whole, fraction, rest) := splitPoint (fun c => (Text.hexDigit? c).isSome) cs
  if whole.isEmpty && fraction.isEmpty then none
  else
    let significand :=
      (whole ++ fraction).foldl (fun n c => 16 * n + (Text.hexDigit? c).getD 0) 0
    let number (exponent : Int) := ofScaled 2 1 negative significand (exponent - 4 * fraction.length)
    match rest with
    | [] => some (number 0)
    | letter :: exponent =>
      if letter = 'p' || letter = 'P' then (readExponent? exponent).map number else none

/-- The characters that may stand between the brackets after a NaN. -/
def isPayloadChar (c : Char) : Bool :=
  c.isAlphanum || c = '_'

/-- An infinity or a NaN, in any letter case, the latter with an optional
bracketed payload that is not kept. -/
def readSpecial? (negative : Bool) (cs : List Char) : Option Binary64 :=
  match cs.map Char.toLower with
  | ['i', 'n', 'f'] => some (infinity negative)
  | ['i', 'n', 'f', 'i', 'n', 'i', 't', 'y'] => some (infinity negative)
  | ['n', 'a', 'n'] => some (nan negative)
  | 'n' :: 'a' :: 'n' :: '(' :: payload =>
    if payload.getLast? = some ')' && payload.dropLast.all isPayloadChar then
      some (nan negative)
    else none
  | _ => none

/-- An unsigned number of any kind. -/
def readUnsigned? (negative : Bool) : List Char → Option Binary64
  | '0' :: 'x' :: digits => readHexadecimal? negative digits
  | '0' :: 'X' :: digits => readHexadecimal? negative digits
  | cs => (readDecimal? negative cs).or (readSpecial? negative cs)

/-- A floating-point number as the whole of a text. -/
def read? (cs : List Char) : Option Binary64 :=
  match cs.dropWhile Text.isBlank with
  | '-' :: rest => readUnsigned? true rest
  | '+' :: rest => readUnsigned? false rest
  | rest => readUnsigned? false rest

end AgentKit.Binary64
