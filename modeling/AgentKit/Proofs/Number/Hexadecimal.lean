/-
# Hexadecimal digits

A number that is padded with zeros has exactly as many digits as were asked for if it is
small enough, and then no other number that is has the same digits. The first digit is
what is left of the number above the others.
-/

import AgentKit.Text.Ascii

namespace AgentKit.Text

/-- The characters of the digits are in lower case, and each stands for one digit. -/
theorem isLowerHex_digitChar {digit : Nat} (bound : digit < 16) :
    isLowerHex (Nat.digitChar digit) := by
  revert digit
  decide

theorem digitChar_inj {digit other : Nat} (bound : digit < 16) (bound' : other < 16)
    (same : Nat.digitChar digit = Nat.digitChar other) : digit = other := by
  have distinct : ∀ digit < 16, ∀ other < 16,
      Nat.digitChar digit = Nat.digitChar other → digit = other := by decide
  exact distinct digit bound other bound' same

theorem toNat_le_of_isLowerHex {c : Char} (hex : isLowerHex c) : c.toNat ≤ 102 := by
  rcases Bool.or_eq_true_iff.mp hex with digit | letter
  · exact Nat.le_trans (toNat_of_isDigit digit).2 (by decide)
  · have range := Bool.and_eq_true_iff.mp letter
    exact UInt32.le_iff_toNat_le.mp (of_decide_eq_true range.2)

variable {width n m : Nat}

theorem isLowerHex_of_mem_fixedHex {c : Char} (member : c ∈ fixedHex width n) :
    isLowerHex c := by
  induction width generalizing n with
  | zero => simp [fixedHex] at member
  | succ width ih =>
      rcases List.mem_append.mp member with front | last
      · exact ih front
      · rw [List.mem_singleton.mp last]
        exact isLowerHex_digitChar (Nat.mod_lt n (by decide))

/-- The digits of a number, but for the last, are those of its sixteenth. -/
theorem div_lt_of_lt_succ (fits : n < Nat.pow 16 (width + 1)) : n / 16 < Nat.pow 16 width :=
  Nat.div_lt_of_lt_mul (Nat.mul_comm _ _ ▸ fits)

theorem fixedHex_inj (fits : n < Nat.pow 16 width) (fits' : m < Nat.pow 16 width)
    (same : fixedHex width n = fixedHex width m) : n = m := by
  induction width generalizing n m with
  | zero => exact (Nat.lt_one_iff.mp fits).trans (Nat.lt_one_iff.mp fits').symm
  | succ width ih =>
      obtain ⟨front, last⟩ := List.append_inj same (by simp)
      have quotients := ih (div_lt_of_lt_succ fits) (div_lt_of_lt_succ fits') front
      have remainders := digitChar_inj (Nat.mod_lt n (by decide)) (Nat.mod_lt m (by decide))
        (List.singleton_inj.mp last)
      omega

/-- The first digit counts the highest power of sixteen. -/
theorem fixedHex_succ_eq_cons (width n : Nat) :
    fixedHex (width + 1) n =
      Nat.digitChar (n / Nat.pow 16 width % 16) :: fixedHex width n := by
  induction width generalizing n with
  | zero => simp [fixedHex]
  | succ width ih =>
      have above : n / 16 / Nat.pow 16 width = n / Nat.pow 16 (width + 1) := by
        rw [Nat.div_div_eq_div_mul, Nat.mul_comm]
        rfl
      rw [fixedHex, ih, above]
      rfl

theorem fixedHex_zero (width : Nat) : fixedHex width 0 = List.replicate width '0' := by
  induction width with
  | zero => rfl
  | succ width ih => rw [fixedHex, List.replicate_succ', ← ih]; rfl

/-- A number that is small enough is not padded to more digits than were asked for. -/
theorem paddedHex_eq_fixedHex (positive : 0 < width) (fits : n < Nat.pow 16 width) :
    paddedHex width n = fixedHex width n := by
  -- Padding is done in front, where it goes with the digits before the last.
  induction width generalizing n with
  | zero => exact absurd positive (Nat.lt_irrefl 0)
  | succ width ih =>
      by_cases small : n < 16
      · rw [paddedHex, Nat.toDigits_of_lt_base small, fixedHex, Nat.div_eq_of_lt small,
          Nat.mod_eq_of_lt small, fixedHex_zero]
        rfl
      · have wide : 0 < width := by
          refine Nat.pos_of_ne_zero fun zero => small ?_
          subst zero
          exact fits
        rw [fixedHex, ← ih wide (div_lt_of_lt_succ fits), paddedHex, paddedHex,
          Nat.toDigits_of_base_le (by decide) (Nat.le_of_not_lt small), List.leftpad, List.leftpad,
          List.append_assoc, List.length_append, List.length_singleton, Nat.add_sub_add_right]

end AgentKit.Text
