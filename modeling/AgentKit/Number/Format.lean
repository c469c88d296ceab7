/-
# Fixed-width integers

An integer setting has a format: signed or unsigned, and a width in bits. A
number is either in the format's range, and then it is kept exactly, or it is
refused; nothing is ever narrowed. Durations and instants are 64-bit counts,
whose sums wrap around.
-/

import AgentKit.Text.Ascii

namespace AgentKit

/-- A fixed-width integer format. -/
structure IntFormat where
  signed : Bool
  bits : Nat
  deriving DecidableEq

namespace IntFormat

/-- How many numbers can be told apart with so many bits. -/
def patterns (bits : Nat) : Nat :=
  1 <<< bits

/-- The least number of the format. -/
def least (format : IntFormat) : Int :=
  if format.signed then -(patterns (format.bits - 1) : Int) else 0

/-- The greatest number of the format. -/
def greatest (format : IntFormat) : Int :=
  if format.signed then patterns (format.bits - 1) - 1 else patterns format.bits - 1

/-- Whether the format can hold `n`. -/
def holds (format : IntFormat) (n : Int) : Bool :=
  format.least ≤ n && n ≤ format.greatest

/-- An integer of any size in decimal: digits, with a leading minus sign where
`signed` allows it. Neither a plus sign nor blanks are allowed. -/
def readDecimal? (signed : Bool) : List Char → Option Int
  | '-' :: digits => if signed then (Text.decimal? digits).map fun n => -(n : Int) else none
  | digits => (Text.decimal? digits).map fun n => (n : Int)

/-- A decimal number of the format, or nothing. -/
def read? (format : IntFormat) (cs : List Char) : Option Int :=
  (readDecimal? format.signed cs).filter format.holds

theorem holds_iff {format : IntFormat} {n : Int} :
    format.holds n ↔ format.least ≤ n ∧ n ≤ format.greatest := by
  simp [holds]

/-- The signed 64-bit format, in which milliseconds and nanoseconds are
counted. -/
def int64 : IntFormat := ⟨true, 64⟩

/-- The unsigned 64-bit format. -/
def uint64 : IntFormat := ⟨false, 64⟩

/-- The signed 32-bit format, in which tokens are counted. -/
def int32 : IntFormat := ⟨true, 32⟩

theorem holds_int64_iff {n : Int} :
    int64.holds n ↔ -0x8000000000000000 ≤ n ∧ n ≤ 0x7fffffffffffffff := by
  simp [holds_iff, int64, least, greatest, patterns]

/-! ## Signed formats -/

theorem holds_signed_iff {bits : Nat} {n : Int} :
    (IntFormat.mk true (bits + 1)).holds n ↔ -(patterns bits : Int) ≤ n ∧ n < patterns bits := by
  simp only [holds_iff, least, greatest, if_true, Nat.add_sub_cancel]
  omega

/-- What wraps around ends up in the range. -/
theorem holds_bmod (bits : Nat) (n : Int) :
    (IntFormat.mk true (bits + 1)).holds (n.bmod (2 * patterns bits)) := by
  have positive : 0 < 2 * patterns bits := by
    rw [patterns, Nat.one_shiftLeft]
    exact Nat.mul_pos (by decide) (Nat.two_pow_pos bits)
  have low := @Int.le_bmod n _ positive
  have high := @Int.bmod_lt n _ positive
  rw [holds_signed_iff]
  omega

/-- What is in the range does not wrap. -/
theorem bmod_eq_self {bits : Nat} {n : Int} (held : (IntFormat.mk true (bits + 1)).holds n) :
    n.bmod (2 * patterns bits) = n := by
  have range := holds_signed_iff.mp held
  exact Int.bmod_eq_of_le (by omega) (by omega)

end IntFormat

/-- The signed 64-bit count congruent to `n`. -/
def wrap64 (n : Int) : Int :=
  n.bmod 0x10000000000000000

/-- A count in the range does not wrap. -/
theorem wrap64_eq_self {n : Int} (held : IntFormat.int64.holds n) : wrap64 n = n :=
  IntFormat.bmod_eq_self held

theorem holds_wrap64 (n : Int) : IntFormat.int64.holds (wrap64 n) :=
  IntFormat.holds_bmod 63 n

/-- A count that wraps around changes by a number of whole turns. -/
theorem exists_wrap64_eq (n : Int) : ∃ turns : Int, wrap64 n = n - turns * 0x10000000000000000 := by
  refine ⟨n.bdiv 0x10000000000000000, ?_⟩
  rw [wrap64, Int.bmod_eq_self_sub_mul_bdiv, Int.mul_comm]
  rfl

/-- The signed 32-bit number congruent to `n`. -/
def wrap32 (n : Int) : Int :=
  n.bmod 0x100000000

theorem wrap32_eq_self {n : Int} (held : IntFormat.int32.holds n) : wrap32 n = n :=
  IntFormat.bmod_eq_self held

theorem holds_wrap32 (n : Int) : IntFormat.int32.holds (wrap32 n) :=
  IntFormat.holds_bmod 31 n

end AgentKit
