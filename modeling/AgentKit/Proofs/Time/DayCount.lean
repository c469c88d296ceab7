/-
# Counting days

The number of a day can be found by counting: a year has 365 days or 366, a month as
many as the calendar says, and so one gets from the beginning of the year zero to any
later date. The calendar's closed form, by eras and with years that begin in March,
comes to the same.
-/

import Mathlib.Algebra.Ring.Int.Defs
import AgentKit.Time.Calendar

namespace AgentKit.CivilDate

/-- The days of a year. -/
def daysInYear (year : Int) : Int :=
  if isLeapYear year then 366 else 365

/-- The days from the beginning of the year zero to a date: those of the years before, of
the months before and of the days before. -/
def daysSinceYearZero (date : CivilDate) : Int :=
  ((List.range date.year.toNat).map fun year : Nat => daysInYear year).sum
    + ((List.range (date.month - 1).toNat).map
        fun month : Nat => daysInMonth date.year (month + 1)).sum
    + (date.day - 1)

/-- The days from the beginning of 1970 to a date. -/
def daysSinceEpoch (date : CivilDate) : Int :=
  daysSinceYearZero date - daysSinceYearZero ⟨1970, 1, 1⟩

theorem isLeapYear_iff {year : Int} :
    isLeapYear year ↔ year % 4 = 0 ∧ (year % 100 ≠ 0 ∨ year % 400 = 0) := by
  simp [isLeapYear]

/-- Whole years come to 365 days each and one more for every leap year among them, which is
the same whether eras are told apart or not. -/
theorem daysBefore_eq (year : Int) :
    year / 400 * daysPerEra + daysBeforeYear (year % 400) =
      365 * year + year / 4 - year / 100 + year / 400 := by
  simp only [daysPerEra, daysBeforeYear]
  omega

theorem dayNumber_eq (date : CivilDate) :
    date.dayNumber = 365 * date.marchYear + date.marchYear / 4 - date.marchYear / 100
      + date.marchYear / 400 + daysBeforeMonth date.marchMonth + (date.day - 1) - epochOffset := by
  rw [dayNumber, daysBefore_eq]

theorem dayNumber_next_year (year : Int) :
    dayNumber ⟨year + 1, 1, 1⟩ = dayNumber ⟨year, 1, 1⟩ + daysInYear year := by
  simp only [dayNumber_eq, marchYear, marchMonth, daysBeforeMonth, daysInYear, isLeapYear_iff]
  split <;> omega

theorem dayNumber_next_month {year month : Int} (low : 1 ≤ month) (high : month ≤ 11) :
    dayNumber ⟨year, month + 1, 1⟩ = dayNumber ⟨year, month, 1⟩ + daysInMonth year month := by
  -- The lengths of the months follow no rule that would make this one equation.
  have each : month = 1 ∨ month = 2 ∨ month = 3 ∨ month = 4 ∨ month = 5 ∨ month = 6 ∨ month = 7 ∨
      month = 8 ∨ month = 9 ∨ month = 10 ∨ month = 11 := by omega
  simp only [dayNumber_eq, marchYear, marchMonth, daysBeforeMonth, daysInMonth, isLeapYear_iff]
  rcases each with rfl | rfl | rfl | rfl | rfl | rfl | rfl | rfl | rfl | rfl | rfl
  all_goals simp
  all_goals omega

theorem dayNumber_eq_first_add (date : CivilDate) :
    date.dayNumber = dayNumber ⟨date.year, date.month, 1⟩ + (date.day - 1) := by
  simp only [dayNumber_eq, marchYear, marchMonth]
  omega

theorem dayNumber_eq_sum_years (years : Nat) :
    dayNumber ⟨years, 1, 1⟩ =
      dayNumber ⟨0, 1, 1⟩ + ((List.range years).map fun year : Nat => daysInYear year).sum := by
  induction years with
  | zero => rfl
  | succ years ih =>
      rw [List.range_succ, List.map_append, List.sum_append, ← Int.add_assoc, ← ih]
      simpa using dayNumber_next_year years

theorem dayNumber_eq_sum_months (year : Int) {months : Nat} (high : months ≤ 11) :
    dayNumber ⟨year, months + 1, 1⟩ = dayNumber ⟨year, 1, 1⟩
      + ((List.range months).map fun month : Nat => daysInMonth year (month + 1)).sum := by
  induction months with
  | zero => rw [List.range_zero, List.map_nil, List.sum_nil, Int.add_zero]; rfl
  | succ months ih =>
      rw [List.range_succ, List.map_append, List.sum_append, ← Int.add_assoc, ← ih (by omega)]
      simpa using dayNumber_next_month (show 1 ≤ (months : Int) + 1 by omega) (by omega)

/-- The number of a day is the number of days from the beginning of 1970 to it. -/
theorem dayNumber_eq_daysSinceEpoch {date : CivilDate} (since : 0 ≤ date.year)
    (monthLow : 1 ≤ date.month) (monthHigh : date.month ≤ 12) :
    date.dayNumber = date.daysSinceEpoch := by
  have count : ∀ date : CivilDate, 0 ≤ date.year → 1 ≤ date.month → date.month ≤ 12 →
      date.dayNumber = dayNumber ⟨0, 1, 1⟩ + date.daysSinceYearZero := by
    intro date since monthLow monthHigh
    have years := dayNumber_eq_sum_years date.year.toNat
    have months := @dayNumber_eq_sum_months date.year (date.month - 1).toNat (by omega)
    rw [Int.toNat_of_nonneg since] at years
    rw [Int.toNat_of_nonneg (by omega), Int.sub_add_cancel] at months
    rw [dayNumber_eq_first_add, months, years, daysSinceYearZero]
    omega
  have epoch : dayNumber ⟨1970, 1, 1⟩ = 0 := by decide
  have whole := count ⟨1970, 1, 1⟩ (by decide) (by decide) (by decide)
  rw [count date since monthLow monthHigh, daysSinceEpoch]
  omega

/-- The leap day of a century that is a leap year. -/
example : daysSinceEpoch ⟨2000, 2, 29⟩ = 11016 := by decide +kernel

end AgentKit.CivilDate
