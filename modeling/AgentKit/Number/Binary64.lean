/-
# Binary floating-point numbers of 64 bits

A number is its bit pattern: one sign bit, eleven exponent bits and
fifty-two fraction bits. The module rounds exact ratios to the nearest
pattern, a tie going to the even one, and compares patterns as numbers. There
is no arithmetic here: settings are read, compared with zero and handed on.
-/

import AgentKit.Text.Ascii

namespace AgentKit

/-- A 64-bit floating-point number as its bit pattern. -/
structure Binary64 where
  bits : UInt64
  deriving DecidableEq

namespace Binary64

/-- The pattern of positive infinity, above that of every finite number. -/
def infinityBits : Nat := 0x7ff0000000000000

/-- The pattern of the sign bit alone. -/
def signBit : Nat := 0x8000000000000000

/-- The pattern of the least number with a full significand, which is two to the
number of fraction bits. -/
def leadingBit : Nat := 0x10000000000000

/-- The number with the given sign and the given pattern of its magnitude. -/
def ofMagnitude (negative : Bool) (magnitude : Nat) : Binary64 :=
  ⟨UInt64.ofNat (if negative then signBit + magnitude else magnitude)⟩

/-- The pattern without its sign bit. -/
def magnitude (x : Binary64) : Nat :=
  x.bits.toNat % signBit

def isNegative (x : Binary64) : Bool :=
  signBit ≤ x.bits.toNat

/-- Positive and negative zero are both zero. -/
def isZero (x : Binary64) : Bool :=
  x.magnitude = 0

def isNaN (x : Binary64) : Bool :=
  infinityBits < x.magnitude

def isFinite (x : Binary64) : Bool :=
  x.magnitude < infinityBits

/-- Equality of numbers: the two zeros are equal, and a NaN equals nothing, not
even itself. -/
def same (x y : Binary64) : Bool :=
  !x.isNaN && !y.isNaN && (x = y || (x.isZero && y.isZero))

def zero : Binary64 := ofMagnitude false 0

def infinity (negative : Bool) : Binary64 := ofMagnitude negative infinityBits

/-- The quiet NaN without payload. -/
def nan (negative : Bool) : Binary64 := ofMagnitude negative 0x7ff8000000000000

/-- The quotient `num / den` rounded to the nearest natural number, a tie going
to the even one. -/
def roundHalfEven (num den : Nat) : Nat :=
  let quotient := num / den
  let twice := 2 * (num % den)
  if den < twice || (den = twice && quotient % 2 = 1) then quotient + 1 else quotient

/-- The exponent of the last fraction bit of the number nearest to the positive
ratio `num / den`: the quotient in units of two to that exponent has
fifty-three bits, unless the exponent is the least one. -/
def unitExponent (num den : Nat) : Int :=
  let guess : Int := (Nat.log2 num : Int) - Nat.log2 den - 53
  let exponent :=
    if num <<< (-guess).toNat < 2 * leadingBit * (den <<< guess.toNat) then guess else guess + 1
  max exponent (-1074)

/-- The pattern of the magnitude nearest to `num / den`. Adding the rounded
quotient to the shifted exponent carries into the exponent where rounding
reaches the next power of two, and no pattern exceeds infinity's. -/
def nearestMagnitude (num den : Nat) : Nat :=
  if num = 0 then 0
  else
    let exponent := unitExponent num den
    let quotient := roundHalfEven (num <<< (-exponent).toNat) (den <<< exponent.toNat)
    min ((exponent + 1074).toNat * leadingBit + quotient) infinityBits

/-- The number nearest to `± num / den`. -/
def ofRatio (negative : Bool) (num den : Nat) : Binary64 :=
  ofMagnitude negative (nearestMagnitude num den)

/-- The number nearest to an integer. -/
def ofInt (n : Int) : Binary64 :=
  ofRatio (n < 0) n.natAbs 1

/-- The number nearest to `± significand * base ^ exponent`, where `base` is at
least two and `bitsPerDigit` is a lower bound for its binary logarithm. An
exponent far outside the range of finite numbers is decided without computing
the power. -/
def ofScaled (base bitsPerDigit : Nat) (negative : Bool) (significand : Nat) (exponent : Int) :
    Binary64 :=
  if significand = 0 then ofMagnitude negative 0
  else if 1100 < exponent then infinity negative
  else if (Nat.log2 significand : Int) + 1 + bitsPerDigit * exponent < -1100 ∧ exponent < 0 then
    ofMagnitude negative 0
  else ofRatio negative (significand * Nat.pow base exponent.toNat) (Nat.pow base (-exponent).toNat)

/-- The sixteen hexadecimal digits of the pattern. -/
def hex (x : Binary64) : String :=
  String.ofList (Text.fixedHex 16 x.bits.toNat)

/-- The significand and the exponent of two of a finite magnitude. -/
def unpack (x : Binary64) : Nat × Int :=
  let exponent : Nat := x.magnitude / leadingBit
  let fraction : Nat := x.magnitude % leadingBit
  if exponent = 0 then (fraction, -1074) else (fraction + leadingBit, (exponent : Int) - 1075)

/-- What is left of a finite number without its fraction. -/
def wholePart? (x : Binary64) : Option Int :=
  if x.isFinite then
    let (significand, exponent) := x.unpack
    let whole : Nat := (significand <<< exponent.toNat) >>> (-exponent).toNat
    some (if x.isNegative then -whole else whole)
  else none

/-- The exact decimal expansion of a finite number, with at least one digit on
each side of the point. -/
def expansion (x : Binary64) : String :=
  let (significand, exponent) := x.unpack
  let sign := if x.isNegative then "-" else ""
  let places := (-exponent).toNat
  let scaled := (significand <<< exponent.toNat) * Nat.pow 5 places
  let unit := Nat.pow 10 places
  let whole := toString (scaled / unit)
  let fraction := String.ofList (Text.fixedDigits (max places 1) (scaled % unit))
  sign ++ whole ++ "." ++ fraction

end Binary64

end AgentKit
