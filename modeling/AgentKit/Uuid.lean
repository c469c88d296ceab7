/-
# Random identifiers

A version 4 UUID is made of two random 64-bit words. Four bits of the first
word are replaced by the version and two of the second by the variant; all
others show in the thirty-two hexadecimal digits of the text.
-/

import AgentKit.Text.Ascii

namespace AgentKit.Uuid

/-- The first word with its version bits set to four. -/
def stampVersion (word : UInt64) : UInt64 :=
  (word &&& 0xffffffffffff0fff) ||| 0x0000000000004000

/-- The second word with its variant bits set to two. -/
def stampVariant (word : UInt64) : UInt64 :=
  (word &&& 0x3fffffffffffffff) ||| 0x8000000000000000

/-- The five fields that two words are cut into, in order: how many digits each
has at least, and the bits that it shows. -/
def fields (first second : UInt64) : List (Nat × UInt64) :=
  [(8, first >>> 32), (4, (first >>> 16) &&& 0xffff), (4, first &&& 0xffff),
    (4, second >>> 48), (12, second &&& 0xffffffffffff)]

/-- The text of the UUID made of two words, in lower case. -/
def ofWords (first second : UInt64) : String :=
  String.ofList <| ['-'].intercalate <|
    (fields (stampVersion first) (stampVariant second)).map fun (width, bits) =>
      Text.paddedHex width bits.toNat

/-- What may stand at a position of a version 4 UUID. -/
def fits (position : Nat) (c : Char) : Bool :=
  if position = 8 || position = 13 || position = 18 || position = 23 then c = '-'
  else if position = 14 then c = '4'
  else if position = 19 then c = '8' || c = '9' || c = 'a' || c = 'b'
  else Text.isLowerHex c

/-- Whether a text is a version 4 UUID in canonical lower case. -/
def isCanonical (text : String) : Bool :=
  let cs := text.toList
  cs.length = 36 && cs.zipIdx.all fun (c, position) => fits position c

end AgentKit.Uuid
