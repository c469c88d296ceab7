/-
# Stored integers

An integer that comes from outside is stored as a 64-bit word, with a sign if it is
negative and without one otherwise. Whether a format can hold it is told by comparing
words, and a word is taken over by keeping as many of its low bits as the format has. In
a format of up to 64 bits this comes to comparing the integers themselves, and an
integer that the format can hold is taken over as it is.
-/

import AgentKit.Number.Format

namespace AgentKit

/-- An integer as a 64-bit word. -/
inductive StoredInt
  | unsigned (word : UInt64)
  | signed (word : Int64)
  deriving DecidableEq

namespace StoredInt

/-- The integer that is stored. -/
def value : StoredInt → Int
  | unsigned word => word.toNat
  | signed word => word.toInt

/-- Only negative integers need a sign. -/
def ofInt (n : Int) : StoredInt :=
  if n < 0 then signed (Int64.ofInt n) else unsigned (UInt64.ofInt n)

theorem toNat_uint64OfInt {n : Int} (low : 0 ≤ n) (high : n < 0x10000000000000000) :
    ((UInt64.ofInt n).toNat : Int) = n := by
  change (((n % 0x10000000000000000).toNat % 0x10000000000000000 : Nat) : Int) = n
  omega

/-- Every integer that has a 64-bit word, with or without sign, is found in it again. -/
theorem value_ofInt {n : Int} (low : -0x8000000000000000 ≤ n) (high : n < 0x10000000000000000) :
    (ofInt n).value = n := by
  unfold ofInt
  split
  · exact Int64.toInt_ofInt_of_le low (by omega)
  · exact toNat_uint64OfInt (by omega) high

end StoredInt

namespace IntFormat

/-- Whether a stored integer is in the format's range. The limits are compared as words of
the kind it is stored in, unless only that kind has a sign. -/
def admits (format : IntFormat) : StoredInt → Bool
  | .unsigned word => word ≤ UInt64.ofInt format.greatest
  | .signed word =>
    if format.signed then
      Int64.ofInt format.least ≤ word && word ≤ Int64.ofInt format.greatest
    else 0 ≤ word && word.toUInt64 ≤ UInt64.ofInt format.greatest

/-- The number of the format that has the same low bits. -/
def narrow (format : IntFormat) (n : Int) : Int :=
  if format.signed then n.bmod (patterns format.bits) else n % patterns format.bits

variable {format : IntFormat}

theorem patterns_pos (bits : Nat) : 0 < patterns bits := by
  rw [patterns, Nat.one_shiftLeft]
  exact Nat.two_pow_pos bits

theorem patterns_mono {bits more : Nat} (le : bits ≤ more) : patterns bits ≤ patterns more := by
  simp only [patterns, Nat.one_shiftLeft]
  exact Nat.pow_le_pow_right (by decide) le

theorem patterns_succ (bits : Nat) : patterns (bits + 1) = 2 * patterns bits := by
  simp only [patterns, Nat.one_shiftLeft, Nat.pow_succ, Nat.mul_comm]

/-- The limits of a format without sign are words without sign. -/
theorem limits_of_unsigned (unsigned : ¬ format.signed) (fits : format.bits ≤ 64) :
    format.least = 0 ∧ 0 ≤ format.greatest ∧ format.greatest < 0x10000000000000000 := by
  have positive := patterns_pos format.bits
  have high : patterns format.bits ≤ 0x10000000000000000 := patterns_mono fits
  simp only [least, greatest, if_neg unsigned, true_and]
  omega

/-- The limits of a format with sign are words with sign. -/
theorem limits_of_signed (signed : format.signed) (fits : format.bits ≤ 64) :
    -0x8000000000000000 ≤ format.least ∧ format.least ≤ 0 ∧ 0 ≤ format.greatest ∧
      format.greatest < 0x8000000000000000 := by
  have positive := patterns_pos (format.bits - 1)
  have high : patterns (format.bits - 1) ≤ 0x8000000000000000 :=
    patterns_mono (Nat.sub_le_sub_right fits 1)
  simp only [least, greatest, if_pos signed]
  omega

/-- Comparing words tells whether the integer is in the range. -/
theorem admits_iff (fits : format.bits ≤ 64) (stored : StoredInt) :
    format.admits stored ↔ format.holds stored.value := by
  by_cases sign : format.signed
  · obtain ⟨leastLow, leastHigh, greatestLow, greatestHigh⟩ := limits_of_signed sign fits
    cases stored with
    | unsigned word =>
        have limit := StoredInt.toNat_uint64OfInt greatestLow (by omega)
        simp only [admits, decide_eq_true_eq, UInt64.le_iff_toNat_le, holds_iff, StoredInt.value]
        omega
    | signed word =>
        have first := Int64.toInt_ofInt_of_le leastLow (by omega)
        have last := Int64.toInt_ofInt_of_le (n := format.greatest) (by omega) greatestHigh
        simp only [admits, if_pos sign, Bool.and_eq_true, decide_eq_true_eq,
          Int64.le_iff_toInt_le, first, last, holds_iff, StoredInt.value]
  · obtain ⟨least, greatestLow, greatestHigh⟩ := limits_of_unsigned sign fits
    have limit := StoredInt.toNat_uint64OfInt greatestLow greatestHigh
    cases stored with
    | unsigned word =>
        simp only [admits, decide_eq_true_eq, UInt64.le_iff_toNat_le, holds_iff, StoredInt.value]
        omega
    | signed word =>
        simp only [admits, if_neg sign, Bool.and_eq_true, decide_eq_true_eq,
          Int64.le_iff_toInt_le, Int64.toInt_zero, holds_iff, least, StoredInt.value]
        refine and_congr_right fun nonnegative => ?_
        have same := Int64.toNat_toUInt64_of_le (Int64.le_iff_toInt_le.mpr nonnegative)
        have back := Int.toNat_of_nonneg nonnegative
        rw [UInt64.le_iff_toNat_le, same, Int64.toNatClampNeg]
        omega

/-- What is in the range is taken over as it is. -/
theorem narrow_eq_self (positive : 0 < format.bits) {n : Int} (held : format.holds n) :
    format.narrow n = n := by
  obtain ⟨sign, bits⟩ := format
  obtain ⟨bits, rfl⟩ := Nat.exists_eq_succ_of_ne_zero (Nat.ne_of_gt positive)
  cases sign with
  | true =>
      simp only [narrow, if_true, Nat.succ_eq_add_one, patterns_succ]
      exact bmod_eq_self held
  | false =>
      obtain ⟨low, high⟩ := holds_iff.mp held
      exact Int.emod_eq_of_lt low (Int.lt_of_le_sub_one high)

end IntFormat

end AgentKit
