/-
# ASCII text rules

Configuration values, durations and timestamps are read by rules about ASCII
characters only. Every other character is carried along untouched: it is no
blank, no digit and no letter, and has no other case. The core functions work
on lists of characters; the ones on `String` wrap them.
-/

namespace AgentKit.Text

/-- A blank is a space or one of the five controls from tab to carriage
return. -/
def isBlank (c : Char) : Bool :=
  c = ' ' || ('\t' ≤ c && c ≤ '\r')

/-- The text between the blanks at both ends. -/
def trimChars (cs : List Char) : List Char :=
  ((cs.dropWhile isBlank).reverse.dropWhile isBlank).reverse

/-- The text between the blanks at both ends. -/
def trim (s : String) : String :=
  String.ofList (trimChars s.toList)

/-- The items of a comma-separated list, each without the blanks around it.
There is always one item more than there are commas. -/
def commaItems (s : String) : List String :=
  (s.toList.splitOn ',').map fun item => String.ofList (trimChars item)

/-- Names and fault texts that pass through the operating system end before
their first NUL. -/
def untilNul (s : String) : String :=
  String.ofList (s.toList.takeWhile (· ≠ '\x00'))

/-- Upper case for the letters a to z. -/
def upper (s : String) : String :=
  s.map Char.toUpper

/-- Lower case for the letters A to Z. -/
def lower (s : String) : String :=
  s.map Char.toLower

/-- The number that a list of decimal digits denotes. -/
def natOfDigits (digits : List Char) : Nat :=
  Nat.ofDigitChars 10 digits 0

/-- One or more decimal digits and nothing else, read as a number. -/
def decimal? (cs : List Char) : Option Nat :=
  if cs.isEmpty || !cs.all Char.isDigit then none else some (natOfDigits cs)

/-- The decimal digits of `n`, cut or padded with zeros on the left to exactly
`width` digits. -/
def fixedDigits : (width : Nat) → (n : Nat) → List Char
  | 0, _ => []
  | width + 1, n => fixedDigits width (n / 10) ++ [Nat.digitChar (n % 10)]

/-- The lower-case hexadecimal digits of `n`, cut or padded with zeros on the
left to exactly `width` digits. -/
def fixedHex : (width : Nat) → (n : Nat) → List Char
  | 0, _ => []
  | width + 1, n => fixedHex width (n / 16) ++ [Nat.digitChar (n % 16)]

/-- The lower-case hexadecimal digits of `n`, padded with zeros on the left to at
least `width` digits. -/
def paddedHex (width n : Nat) : List Char :=
  (Nat.toDigits 16 n).leftpad width '0'

/-- A hexadecimal digit in lower case. -/
def isLowerHex (c : Char) : Bool :=
  c.isDigit || ('a' ≤ c && c ≤ 'f')

/-- The value of a hexadecimal digit in either case. -/
def hexDigit? (c : Char) : Option Nat :=
  if c.isDigit then some (c.toNat - '0'.toNat)
  else if 'a' ≤ c && c ≤ 'f' then some (c.toNat - 'a'.toNat + 10)
  else if 'A' ≤ c && c ≤ 'F' then some (c.toNat - 'A'.toNat + 10)
  else none

/-- A message names a text between double quotes, without escaping it. -/
def quoted (s : String) : String :=
  "\"" ++ s ++ "\""

/-! ## Digits -/

@[simp]
theorem length_fixedDigits (width n : Nat) : (fixedDigits width n).length = width := by
  induction width generalizing n with
  | zero => rfl
  | succ width ih => simp [fixedDigits, ih]

@[simp]
theorem length_fixedHex (width n : Nat) : (fixedHex width n).length = width := by
  induction width generalizing n with
  | zero => rfl
  | succ width ih => simp [fixedHex, ih]

/-- The character of a decimal digit is one, and stands for the digit. -/
theorem digitChar_of_lt {digit : Nat} (bound : digit < 10) :
    (Nat.digitChar digit).isDigit ∧ (Nat.digitChar digit).toNat - '0'.toNat = digit := by
  revert digit
  decide

theorem toNat_of_isDigit {c : Char} (digit : c.isDigit) : 48 ≤ c.toNat ∧ c.toNat ≤ 57 := by
  simpa [Char.isDigit, UInt32.le_iff_toNat_le] using digit

theorem isDigit_of_mem_fixedDigits {width n : Nat} {c : Char}
    (member : c ∈ fixedDigits width n) : c.isDigit := by
  induction width generalizing n with
  | zero => simp [fixedDigits] at member
  | succ width ih =>
      rcases List.mem_append.mp member with front | last
      · exact ih front
      · rw [List.mem_singleton.mp last]
        exact (digitChar_of_lt (Nat.mod_lt n (by decide))).1

theorem natOfDigits_append_singleton (front : List Char) (last : Char) :
    natOfDigits (front ++ [last]) = 10 * natOfDigits front + (last.toNat - '0'.toNat) := by
  simp [natOfDigits, Nat.ofDigitChars]

theorem natOfDigits_fixedDigits_zero (n : Nat) : natOfDigits (fixedDigits 0 n) = 0 := rfl

/-- The digits of a number denote what those of its tenth denote, followed by its
last digit. -/
theorem natOfDigits_fixedDigits_succ (width n : Nat) :
    natOfDigits (fixedDigits (width + 1) n)
      = 10 * natOfDigits (fixedDigits width (n / 10)) + n % 10 := by
  rw [fixedDigits, natOfDigits_append_singleton,
    (digitChar_of_lt (Nat.mod_lt n (by decide : 10 > 0))).2]

/-- Enough digits denote the number itself. -/
theorem natOfDigits_fixedDigits {width n : Nat} (fits : n < Nat.pow 10 width) :
    natOfDigits (fixedDigits width n) = n := by
  induction width generalizing n with
  | zero =>
      have zero : n = 0 := Nat.lt_one_iff.mp fits
      rw [natOfDigits_fixedDigits_zero, zero]
  | succ width ih =>
      have front : n / 10 < Nat.pow 10 width :=
        Nat.div_lt_of_lt_mul (Nat.mul_comm _ _ ▸ fits)
      rw [natOfDigits_fixedDigits_succ, ih front]
      omega

theorem decimal?_eq_some_iff {cs : List Char} {n : Nat} :
    decimal? cs = some n ↔ cs ≠ [] ∧ (∀ c ∈ cs, c.isDigit) ∧ natOfDigits cs = n := by
  cases cs with
  | nil => simp [decimal?]
  | cons c rest => simp [decimal?]

end AgentKit.Text
