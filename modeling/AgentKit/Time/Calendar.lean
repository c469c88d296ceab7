/-
# The civil calendar

Days are numbered from 1970-01-01, which is day zero, in both directions
without end. Years are counted from March, so that the leap day is the last
day of its year. They are grouped into eras of four hundred years, after which
the calendar repeats, and an era into centuries and spans of four years: each
span has one leap day, each century lacks that of its last span, and each era
has that of its last century after all.

The date of a day has that day's number, and a date in the calendar is the
date of its day. A day that lies beyond its month's end has a number too, but
belongs to a later month.
-/

namespace AgentKit

/-- A year, a month and a day of the civil calendar. -/
structure CivilDate where
  year : Int
  month : Int
  day : Int
  deriving DecidableEq

namespace CivilDate

/-- Leap years are divisible by four, centuries among them by four hundred. -/
def isLeapYear (year : Int) : Bool :=
  year % 4 = 0 && (year % 100 ≠ 0 || year % 400 = 0)

/-- The days of a month. -/
def daysInMonth (year month : Int) : Int :=
  if month = 2 then (if isLeapYear year then 29 else 28)
  else if month = 4 ∨ month = 6 ∨ month = 9 ∨ month = 11 then 30
  else 31

/-- Whether a date is in the calendar. -/
def Exists (date : CivilDate) : Prop :=
  1 ≤ date.month ∧ date.month ≤ 12 ∧ 1 ≤ date.day
    ∧ date.day ≤ daysInMonth date.year date.month

instance (date : CivilDate) : Decidable date.Exists :=
  inferInstanceAs (Decidable (_ ∧ _ ∧ _ ∧ _))

/-! ## From dates to days -/

/-- The days in an era. -/
def daysPerEra : Int := 146097

/-- The number of 1970-01-01 counted from the first of March of the year
zero. -/
def epochOffset : Int := 719468

/-- The days before a year of the era. -/
def daysBeforeYear (yearOfEra : Int) : Int :=
  365 * yearOfEra + yearOfEra / 4 - yearOfEra / 100

/-- The days of a year that is counted from March: the leap day is that of the
February at its end. -/
def yearLength (marchYear : Int) : Int :=
  if isLeapYear (marchYear + 1) then 366 else 365

/-- The days before a month, counted from March as month zero. -/
def daysBeforeMonth (monthFromMarch : Int) : Int :=
  (153 * monthFromMarch + 2) / 5

/-- The year a date lies in, counted from March. -/
def marchYear (date : CivilDate) : Int :=
  if date.month ≤ 2 then date.year - 1 else date.year

/-- The month of a date, counted from March as month zero. -/
def marchMonth (date : CivilDate) : Int :=
  if date.month ≤ 2 then date.month + 9 else date.month - 3

/-- The number of a day. The day of the month may lie beyond the month's end,
and then the day is the one that many days after the month's beginning. -/
def dayNumber (date : CivilDate) : Int :=
  date.marchYear / 400 * daysPerEra + daysBeforeYear (date.marchYear % 400)
    + daysBeforeMonth date.marchMonth + (date.day - 1) - epochOffset

/-! ## From days to dates -/

/-- The year of the era that a day of the era lies in. The last century of an
era and the last year of a span are a day longer than the others. -/
def yearOfEra (dayOfEra : Int) : Int :=
  let century := min (dayOfEra / 36524) 3
  let dayOfCentury := dayOfEra - century * 36524
  let span := dayOfCentury / 1461
  let dayOfSpan := dayOfCentury % 1461
  century * 100 + span * 4 + min (dayOfSpan / 365) 3

/-- The month, counted from March, that a day of the year lies in. -/
def monthOfYear (dayOfYear : Int) : Int :=
  (5 * dayOfYear + 2) / 153

/-- The date of a day in a year and month that are counted from March. -/
def ofMarch (year month day : Int) : CivilDate :=
  if month < 10 then ⟨year, month + 3, day⟩ else ⟨year + 1, month - 9, day⟩

/-- The day with a number. -/
def ofDayNumber (number : Int) : CivilDate :=
  let shifted := number + epochOffset
  let dayOfEra := shifted % daysPerEra
  let year := yearOfEra dayOfEra
  let dayOfYear := dayOfEra - daysBeforeYear year
  let month := monthOfYear dayOfYear
  ofMarch (shifted / daysPerEra * 400 + year) month (dayOfYear - daysBeforeMonth month + 1)

/-! ## Years of the era -/

theorem isLeapYear_add_era (era year : Int) :
    isLeapYear (era * 400 + year) = isLeapYear year := by
  have quarters : (era * 400 + year) % 4 = year % 4 := by omega
  have hundreds : (era * 400 + year) % 100 = year % 100 := by omega
  have eras : (era * 400 + year) % 400 = year % 400 := by omega
  rw [isLeapYear, isLeapYear, quarters, hundreds, eras]

theorem yearLength_le (year : Int) : yearLength year ≤ 366 := by
  unfold yearLength
  split <;> omega

theorem le_yearLength (year : Int) : 365 ≤ yearLength year := by
  unfold yearLength
  split <;> omega

/-- The days before a year, by its century, its span and its year of the span. -/
theorem daysBeforeYear_eq {century span year : Int} (spanLow : 0 ≤ span) (spanHigh : span ≤ 24)
    (yearLow : 0 ≤ year) (yearHigh : year ≤ 3) :
    daysBeforeYear (century * 100 + span * 4 + year)
      = century * 36524 + span * 1461 + year * 365 := by
  have quarters : (century * 100 + span * 4 + year) / 4 = century * 25 + span := by omega
  have hundreds : (century * 100 + span * 4 + year) / 100 = century := by omega
  rw [daysBeforeYear, quarters, hundreds]
  omega

/-- The last year of a span is the long one, unless the span is the last of a
century that is not the last of its era. -/
theorem yearLength_eq {century span year : Int} (centuryLow : 0 ≤ century)
    (centuryHigh : century ≤ 3) (spanLow : 0 ≤ span) (spanHigh : span ≤ 24)
    (yearLow : 0 ≤ year) (yearHigh : year ≤ 3) :
    yearLength (century * 100 + span * 4 + year)
      = if year = 3 ∧ (span ≠ 24 ∨ century = 3) then 366 else 365 := by
  have leap : isLeapYear (century * 100 + span * 4 + year + 1)
      ↔ year = 3 ∧ (span ≠ 24 ∨ century = 3) := by
    simp only [isLeapYear, Bool.and_eq_true, Bool.or_eq_true, decide_eq_true_eq]
    omega
  simp [yearLength, leap]

/-- A day of a span's year lies in that year. -/
theorem yearOfEra_add {century span year day : Int} (centuryLow : 0 ≤ century)
    (centuryHigh : century ≤ 3) (spanLow : 0 ≤ span) (spanHigh : span ≤ 24)
    (yearLow : 0 ≤ year) (yearHigh : year ≤ 3)
    (dayLow : 0 ≤ day) (dayHigh : day < yearLength (century * 100 + span * 4 + year)) :
    yearOfEra (century * 36524 + span * 1461 + year * 365 + day)
      = century * 100 + span * 4 + year := by
  rw [yearLength_eq centuryLow centuryHigh spanLow spanHigh yearLow yearHigh] at dayHigh
  have inCentury : span * 1461 + year * 365 + day < 36524 ∨ century = 3 := by
    split at dayHigh <;> omega
  have inSpan : year * 365 + day < 1461 := by split at dayHigh <;> omega
  have inYear : day < 365 ∨ year = 3 := by split at dayHigh <;> omega
  have centuryOf : min ((century * 36524 + span * 1461 + year * 365 + day) / 36524) 3
      = century := by split at dayHigh <;> omega
  have rest : century * 36524 + span * 1461 + year * 365 + day - century * 36524
      = span * 1461 + (year * 365 + day) := by omega
  have spanOf : (span * 1461 + (year * 365 + day)) / 1461 = span := by omega
  have dayOf : (span * 1461 + (year * 365 + day)) % 1461 = year * 365 + day := by omega
  have yearOf : min ((year * 365 + day) / 365) 3 = year := by omega
  simp only [yearOfEra, centuryOf, rest, spanOf, dayOf, yearOf]

/-- A day of a year of the era lies in that year. -/
theorem yearOfEra_daysBeforeYear_add {year day : Int} (low : 0 ≤ year) (high : year ≤ 399)
    (dayLow : 0 ≤ day) (dayHigh : day < yearLength year) :
    yearOfEra (daysBeforeYear year + day) = year := by
  have split : year / 100 * 100 + year % 100 / 4 * 4 + year % 4 = year := by omega
  have start := @daysBeforeYear_eq (year / 100) (year % 100 / 4) (year % 4)
    (by omega) (by omega) (by omega) (by omega)
  have found := @yearOfEra_add (year / 100) (year % 100 / 4) (year % 4) day
    (by omega) (by omega) (by omega) (by omega) (by omega) (by omega)
    dayLow (by rwa [split])
  rw [split] at start found
  rw [start, found]

/-- A day of the era lies in the year that is found for it. -/
theorem yearOfEra_bounds {dayOfEra : Int} (low : 0 ≤ dayOfEra) (high : dayOfEra < daysPerEra) :
    0 ≤ yearOfEra dayOfEra ∧ yearOfEra dayOfEra ≤ 399
      ∧ daysBeforeYear (yearOfEra dayOfEra) ≤ dayOfEra
      ∧ dayOfEra - daysBeforeYear (yearOfEra dayOfEra) < yearLength (yearOfEra dayOfEra) := by
  simp only [yearOfEra, daysPerEra] at *
  have centuryRange : 0 ≤ min (dayOfEra / 36524) 3 ∧ min (dayOfEra / 36524) 3 ≤ 3
      ∧ 0 ≤ dayOfEra - min (dayOfEra / 36524) 3 * 36524
      ∧ dayOfEra - min (dayOfEra / 36524) 3 * 36524 ≤ 36524
      ∧ (dayOfEra - min (dayOfEra / 36524) 3 * 36524 ≤ 36523
        ∨ min (dayOfEra / 36524) 3 = 3) := by omega
  generalize min (dayOfEra / 36524) 3 = century at *
  obtain ⟨dayOfCentury, centurySplit⟩ : ∃ day, day = dayOfEra - century * 36524 := ⟨_, rfl⟩
  rw [← centurySplit] at centuryRange ⊢
  have spanRange : 0 ≤ dayOfCentury / 1461 ∧ dayOfCentury / 1461 ≤ 24
      ∧ dayOfCentury = dayOfCentury / 1461 * 1461 + dayOfCentury % 1461
      ∧ 0 ≤ dayOfCentury % 1461 ∧ dayOfCentury % 1461 ≤ 1460 := by omega
  generalize dayOfCentury / 1461 = span at *
  generalize dayOfCentury % 1461 = dayOfSpan at *
  have yearRange : 0 ≤ min (dayOfSpan / 365) 3 ∧ min (dayOfSpan / 365) 3 ≤ 3
      ∧ min (dayOfSpan / 365) 3 * 365 ≤ dayOfSpan
      ∧ dayOfSpan ≤ min (dayOfSpan / 365) 3 * 365 + 365
      ∧ (dayOfSpan ≤ min (dayOfSpan / 365) 3 * 365 + 364
        ∨ min (dayOfSpan / 365) 3 = 3) := by omega
  generalize min (dayOfSpan / 365) 3 = year at *
  rw [daysBeforeYear_eq (by omega) (by omega) (by omega) (by omega),
    yearLength_eq (by omega) (by omega) (by omega) (by omega) (by omega) (by omega)]
  split <;> omega

/-! ## Months of the year -/

/-- Each day of the year lies in a month, and that month has begun. -/
theorem monthOfYear_bounds {dayOfYear : Int} (low : 0 ≤ dayOfYear) (high : dayOfYear < 366) :
    0 ≤ monthOfYear dayOfYear ∧ monthOfYear dayOfYear ≤ 11
      ∧ daysBeforeMonth (monthOfYear dayOfYear) ≤ dayOfYear := by
  simp only [monthOfYear, daysBeforeMonth]
  omega

/-- A day of a month lies in that month. Counted from March, long and short
months alternate within five. -/
theorem monthOfYear_daysBeforeMonth_add {month day : Int} (dayLow : 1 ≤ day)
    (dayHigh : day ≤ if month % 5 = 1 ∨ month % 5 = 3 then 30 else 31) :
    monthOfYear (daysBeforeMonth month + (day - 1)) = month := by
  simp only [monthOfYear, daysBeforeMonth]
  split at dayHigh <;> omega

theorem marchYear_ofMarch {month : Int} (low : 0 ≤ month) (high : month ≤ 11) (year day : Int) :
    (ofMarch year month day).marchYear = year := by
  unfold ofMarch
  split <;> simp only [marchYear] <;> split <;> omega

theorem marchMonth_ofMarch {month : Int} (low : 0 ≤ month) (high : month ≤ 11) (year day : Int) :
    (ofMarch year month day).marchMonth = month := by
  unfold ofMarch
  split <;> simp only [marchMonth] <;> split <;> omega

theorem day_ofMarch (year month day : Int) : (ofMarch year month day).day = day := by
  unfold ofMarch
  split <;> rfl

theorem ofMarch_marchYear {date : CivilDate} (low : 1 ≤ date.month) (high : date.month ≤ 12) :
    ofMarch date.marchYear date.marchMonth date.day = date := by
  obtain ⟨year, month, day⟩ := date
  simp only [ofMarch, marchYear, marchMonth] at *
  split <;> split <;> simp <;> omega

/-- A day of the year is a day of its month. -/
theorem dayOfMonth_bounds (dayOfYear : Int) :
    1 ≤ dayOfYear - daysBeforeMonth (monthOfYear dayOfYear) + 1
      ∧ dayOfYear - daysBeforeMonth (monthOfYear dayOfYear) + 1
        ≤ if monthOfYear dayOfYear % 5 = 1 ∨ monthOfYear dayOfYear % 5 = 3 then 30 else 31 := by
  refine ⟨?_, ?_⟩
  · simp only [monthOfYear, daysBeforeMonth]
    omega
  · split <;> simp only [monthOfYear, daysBeforeMonth] at * <;> omega

/-- A day of a year has a date in the calendar. -/
theorem exists_ofMarch (era : Int) {year dayOfYear : Int} (low : 0 ≤ dayOfYear)
    (high : dayOfYear < yearLength year) :
    (ofMarch (era * 400 + year) (monthOfYear dayOfYear)
      (dayOfYear - daysBeforeMonth (monthOfYear dayOfYear) + 1)).Exists := by
  have short : dayOfYear < 366 := Int.lt_of_lt_of_le high (yearLength_le year)
  obtain ⟨monthLow, monthHigh, -⟩ := monthOfYear_bounds low short
  obtain ⟨dayLow, dayHigh⟩ := dayOfMonth_bounds dayOfYear
  have leap : isLeapYear (era * 400 + year + 1) = isLeapYear (year + 1) := by
    rw [Int.add_assoc, isLeapYear_add_era]
  generalize monthOfYear dayOfYear = month at *
  unfold ofMarch
  split
  · refine ⟨by simp only; omega, by simp only; omega, dayLow, ?_⟩
    simp only [daysInMonth]
    split at dayHigh <;> split <;> (try split) <;> omega
  · -- January and February, the latter at the end of its March year
    refine ⟨by simp only; omega, by simp only; omega, dayLow, ?_⟩
    simp only [daysInMonth, leap]
    unfold yearLength at high
    rcases (by omega : month = 10 ∨ month = 11) with rfl | rfl
    · exact dayHigh
    · simp only [daysBeforeMonth, Int.reduceSub, if_true]
      by_cases long : isLeapYear (year + 1) = true
      · rw [if_pos long] at high ⊢
        omega
      · rw [if_neg long] at high ⊢
        omega

/-- A date in the calendar lies in its March year and in its March month. -/
theorem dayOfYear_of_exists {date : CivilDate} (inCalendar : date.Exists) :
    0 ≤ daysBeforeMonth date.marchMonth + (date.day - 1)
      ∧ daysBeforeMonth date.marchMonth + (date.day - 1) < yearLength date.marchYear
      ∧ monthOfYear (daysBeforeMonth date.marchMonth + (date.day - 1)) = date.marchMonth := by
  obtain ⟨year, month, day⟩ := date
  obtain ⟨monthLow, monthHigh, dayLow, dayHigh⟩ := inCalendar
  simp only [daysInMonth, marchMonth, marchYear] at *
  by_cases early : month ≤ 2
  · have back : year - 1 + 1 = year := by omega
    simp only [early, if_true, yearLength, back]
    by_cases leap : isLeapYear year = true
    · simp only [leap, if_true] at *
      refine ⟨?_, ?_, monthOfYear_daysBeforeMonth_add dayLow ?_⟩
      · simp only [daysBeforeMonth]; omega
      · simp only [daysBeforeMonth]; split at dayHigh <;> omega
      · split at dayHigh <;> split <;> omega
    · simp only [leap] at *
      refine ⟨?_, ?_, monthOfYear_daysBeforeMonth_add dayLow ?_⟩
      · simp only [daysBeforeMonth]; omega
      · simp only [daysBeforeMonth]; split at dayHigh <;> simp at * <;> omega
      · split at dayHigh <;> split <;> simp at * <;> omega
  · simp only [if_neg early]
    refine ⟨?_, Int.lt_of_lt_of_le ?_ (le_yearLength year),
      monthOfYear_daysBeforeMonth_add dayLow ?_⟩
    · simp only [daysBeforeMonth]; omega
    · simp only [daysBeforeMonth]; split at dayHigh <;> split at dayHigh <;> omega
    · split at dayHigh <;> split at dayHigh <;> split <;> omega

/-! ## Round trips -/

/-- The date of a day has that day's number. -/
theorem dayNumber_ofDayNumber (number : Int) : (ofDayNumber number).dayNumber = number := by
  have eraSplit := Int.mul_ediv_add_emod (number + epochOffset) daysPerEra
  have eraLow : 0 ≤ (number + epochOffset) % daysPerEra := Int.emod_nonneg _ (by decide)
  have eraHigh : (number + epochOffset) % daysPerEra < daysPerEra :=
    Int.emod_lt_of_pos _ (by decide)
  obtain ⟨yearLow, yearHigh, yearStart, yearEnd⟩ := yearOfEra_bounds eraLow eraHigh
  obtain ⟨monthLow, monthHigh, -⟩ := monthOfYear_bounds
    (Int.sub_nonneg_of_le yearStart) (Int.lt_of_lt_of_le yearEnd (yearLength_le _))
  simp only [dayNumber, ofDayNumber, marchYear_ofMarch monthLow monthHigh,
    marchMonth_ofMarch monthLow monthHigh, day_ofMarch]
  have eraOf : ((number + epochOffset) / daysPerEra * 400
      + yearOfEra ((number + epochOffset) % daysPerEra)) / 400
        = (number + epochOffset) / daysPerEra := by omega
  have yearOf : ((number + epochOffset) / daysPerEra * 400
      + yearOfEra ((number + epochOffset) % daysPerEra)) % 400
        = yearOfEra ((number + epochOffset) % daysPerEra) := by omega
  rw [eraOf, yearOf]
  rw [Int.mul_comm] at eraSplit
  omega

/-- The day with a number has a date in the calendar. -/
theorem exists_ofDayNumber (number : Int) : (ofDayNumber number).Exists := by
  have eraLow : 0 ≤ (number + epochOffset) % daysPerEra := Int.emod_nonneg _ (by decide)
  have eraHigh : (number + epochOffset) % daysPerEra < daysPerEra :=
    Int.emod_lt_of_pos _ (by decide)
  obtain ⟨-, -, yearStart, yearEnd⟩ := yearOfEra_bounds eraLow eraHigh
  exact exists_ofMarch _ (Int.sub_nonneg_of_le yearStart) yearEnd

/-- A date in the calendar is the date of its day. -/
theorem ofDayNumber_dayNumber {date : CivilDate} (inCalendar : date.Exists) :
    ofDayNumber date.dayNumber = date := by
  obtain ⟨dayLow, dayHigh, monthOf⟩ := dayOfYear_of_exists inCalendar
  obtain ⟨dayOfYear, dayOfYear_eq⟩ :
    ∃ day, day = daysBeforeMonth date.marchMonth + (date.day - 1) := ⟨_, rfl⟩
  rw [← dayOfYear_eq] at dayLow dayHigh monthOf
  have inYear : dayOfYear < yearLength (date.marchYear % 400) := by
    have yearSplit : date.marchYear / 400 * 400 + (date.marchYear % 400 + 1)
        = date.marchYear + 1 := by omega
    rwa [yearLength, ← isLeapYear_add_era (date.marchYear / 400), yearSplit]
  have short := Int.lt_of_lt_of_le inYear (yearLength_le _)
  have yearOf := yearOfEra_daysBeforeYear_add
    (Int.emod_nonneg date.marchYear (by decide)) (by omega) dayLow inYear
  have inEra : 0 ≤ daysBeforeYear (date.marchYear % 400) + dayOfYear
      ∧ daysBeforeYear (date.marchYear % 400) + dayOfYear < daysPerEra := by
    simp only [daysBeforeYear, daysPerEra]
    omega
  have shifted : date.dayNumber + epochOffset = date.marchYear / 400 * daysPerEra
      + (daysBeforeYear (date.marchYear % 400) + dayOfYear) := by
    simp only [dayNumber]
    omega
  have eraOf : (date.dayNumber + epochOffset) / daysPerEra = date.marchYear / 400 := by
    rw [shifted]
    simp only [daysPerEra] at *
    omega
  have dayOf : (date.dayNumber + epochOffset) % daysPerEra
      = daysBeforeYear (date.marchYear % 400) + dayOfYear := by
    rw [shifted]
    simp only [daysPerEra] at *
    omega
  have rest : daysBeforeYear (date.marchYear % 400) + dayOfYear
      - daysBeforeYear (date.marchYear % 400) = dayOfYear := by omega
  have dayBack : dayOfYear - daysBeforeMonth date.marchMonth + 1 = date.day := by omega
  have yearBack : date.marchYear / 400 * 400 + date.marchYear % 400 = date.marchYear := by omega
  simp only [ofDayNumber, eraOf, dayOf, yearOf, rest, monthOf, dayBack, yearBack]
  exact ofMarch_marchYear inCalendar.1 inCalendar.2.1

end CivilDate

end AgentKit
