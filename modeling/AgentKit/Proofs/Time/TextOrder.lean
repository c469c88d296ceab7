/-
# Timestamps in the order of time

Texts that are sorted by their bytes come in the order of the numbers in them if these
are written in one width, the most significant first, with the same marks in between.
The text of an instant is of this kind: year, month, day, hour, minute, second and
millisecond. So from 1970 on, as far as 64 bits of nanoseconds reach, the texts of
instants sort as the instants do, up to the millisecond.

What carries this is that dates are in the order of their days although months and years
have different lengths. Counted from March, with the leap day at the end, a year is over
when the next one begins, and within it the month follows from the day.
-/

import AgentKit.Proofs.Text.Bytes
import AgentKit.Proofs.Time.DayCount
import AgentKit.Proofs.Time.ReadBack

namespace AgentKit

/-! ## Digits by their bytes -/

namespace Text

@[simp]
theorem isAscii_fixedDigits (width n : Nat) : IsAscii (fixedDigits width n) := by
  intro c inside
  have range := toNat_of_isDigit (isDigit_of_mem_fixedDigits inside)
  omega

/-- The bytes of digits come in the order of the digits, and for one digit in that of what
follows it. -/
theorem digit_cons_lt_iff {c d : Char} (digit : c.isDigit) (digit' : d.isDigit)
    {rest rest' : List UInt8} :
    byteOf c :: rest < byteOf d :: rest' ↔
      c.toNat - '0'.toNat < d.toNat - '0'.toNat ∨
        c.toNat - '0'.toNat = d.toNat - '0'.toNat ∧ rest < rest' := by
  have range := toNat_of_isDigit digit
  have range' := toNat_of_isDigit digit'
  have below : c.toNat - '0'.toNat < d.toNat - '0'.toNat ↔ c.toNat < d.toNat := by
    change c.toNat - 48 < d.toNat - 48 ↔ _
    omega
  have same : c.toNat - '0'.toNat = d.toNat - '0'.toNat ↔ c.toNat = d.toNat := by
    change c.toNat - 48 = d.toNat - 48 ↔ _
    omega
  rw [List.cons_lt_cons_iff, UInt8.lt_iff_toNat_lt, ← UInt8.toNat_inj, toNat_byteOf (by omega),
    toNat_byteOf (by omega), below, same]

theorem digitValue_lt {c : Char} (digit : c.isDigit) : c.toNat - '0'.toNat < 10 := by
  have range := toNat_of_isDigit digit
  change c.toNat - 48 < 10
  omega

/-- Numerals of one width come in the order of their numbers, and for one number in that of
what follows them. -/
theorem numeral_append_lt_iff {width : Nat} {digits others : List Char}
    (numeral : IsNumeral width digits) (numeral' : IsNumeral width others)
    {rest rest' : List UInt8} :
    digits.map byteOf ++ rest < others.map byteOf ++ rest' ↔
      natOfDigits digits < natOfDigits others ∨
        natOfDigits digits = natOfDigits others ∧ rest < rest' := by
  -- The last digit counts among what follows the digits before it.
  induction width generalizing digits others rest rest' with
  | zero =>
      rw [List.eq_nil_of_length_eq_zero numeral.1, List.eq_nil_of_length_eq_zero numeral'.1]
      simp
  | succ width ih =>
      obtain ⟨length, all⟩ := numeral
      obtain ⟨length', all'⟩ := numeral'
      obtain rfl | ⟨front, last, rfl⟩ := List.eq_nil_or_concat digits
      · cases length
      obtain rfl | ⟨front', last', rfl⟩ := List.eq_nil_or_concat others
      · cases length'
      simp only [List.concat_eq_append, List.length_append, List.length_singleton,
        Nat.add_right_cancel_iff, List.forall_mem_append, List.forall_mem_singleton] at *
      have value := digitValue_lt all.2
      have value' := digitValue_lt all'.2
      simp only [natOfDigits_append_singleton, List.map_append, List.append_assoc, List.map_cons,
        List.map_nil, List.singleton_append, ih ⟨length, all.1⟩ ⟨length', all'.1⟩,
        digit_cons_lt_iff all.2 all'.2]
      by_cases following : rest < rest'
      · simp only [following, and_true]
        omega
      · simp only [following, and_false, or_false]
        omega

/-- Numbers that are written in one width come in their order. -/
theorem fixedDigits_append_lt_iff {width : Nat} {m n : Int} (low : 0 ≤ m) (high : m < 10 ^ width)
    (low' : 0 ≤ n) (high' : n < 10 ^ width) {rest rest' : List UInt8} :
    (fixedDigits width m.toNat).map byteOf ++ rest <
        (fixedDigits width n.toNat).map byteOf ++ rest' ↔
      m < n ∨ m = n ∧ rest < rest' := by
  have value : ∀ {k : Int}, 0 ≤ k → k < 10 ^ width →
      natOfDigits (fixedDigits width k.toNat) = k.toNat := by
    intro k low high
    have fits : (k.toNat : Int) < ((10 ^ width : Nat) : Int) := by
      rwa [Int.toNat_of_nonneg low, Int.natCast_pow]
    exact natOfDigits_fixedDigits (Int.ofNat_lt.mp fits)
  have below : m.toNat < n.toNat ↔ m < n := by omega
  have same : m.toNat = n.toNat ↔ m = n := by omega
  rw [numeral_append_lt_iff (isNumeral_fixedDigits width _) (isNumeral_fixedDigits width _),
    value low high, value low' high', below, same]

end Text

/-! ## Dates -/

namespace CivilDate

/-- A date comes before another if its year does, in one year if its month does, and in one
month if its day does. -/
def IsBefore (first second : CivilDate) : Prop :=
  first.year < second.year ∨ first.year = second.year ∧
    (first.month < second.month ∨ first.month = second.month ∧ first.day < second.day)

variable {first second : CivilDate}

/-- Nothing changes if years are counted from March. -/
theorem isBefore_iff_march (inCalendar : first.Exists) (inCalendar' : second.Exists) :
    first.IsBefore second ↔
      first.marchYear < second.marchYear ∨ first.marchYear = second.marchYear ∧
        (first.marchMonth < second.marchMonth ∨
          first.marchMonth = second.marchMonth ∧ first.day < second.day) := by
  obtain ⟨low, high, -⟩ := inCalendar
  obtain ⟨low', high', -⟩ := inCalendar'
  simp only [IsBefore, marchYear, marchMonth]
  split <;> split <;> omega

/-- A year that is counted from March is over when a later one begins. -/
theorem yearStart_add_yearLength_le {year later : Int} (before : year < later) :
    365 * year + year / 4 - year / 100 + year / 400 + yearLength year ≤
      365 * later + later / 4 - later / 100 + later / 400 := by
  simp only [yearLength, isLeapYear_iff]
  split <;> omega

/-- Dates are in the order of their days. -/
theorem dayNumber_lt_iff (inCalendar : first.Exists) (inCalendar' : second.Exists) :
    first.dayNumber < second.dayNumber ↔ first.IsBefore second := by
  obtain ⟨low, high, month⟩ := dayOfYear_of_exists inCalendar
  obtain ⟨low', high', month'⟩ := dayOfYear_of_exists inCalendar'
  rw [isBefore_iff_march inCalendar inCalendar', dayNumber_eq, dayNumber_eq]
  rcases Int.lt_trichotomy first.marchYear second.marchYear with before | same | after
  · have ended := yearStart_add_yearLength_le before
    omega
  · simp only [monthOfYear, daysBeforeMonth] at *
    omega
  · have ended := yearStart_add_yearLength_le after
    omega

end CivilDate

namespace Instant

open Text

/-! ## Seconds -/

namespace Fields

def date (fields : Fields) : CivilDate :=
  ⟨fields.year, fields.month, fields.day⟩

/-- A date and time comes before another if its date does, and on one date if its time
does. -/
def IsBefore (first second : Fields) : Prop :=
  first.date.IsBefore second.date ∨ first.date = second.date ∧
    (first.hour < second.hour ∨ first.hour = second.hour ∧
      (first.minute < second.minute ∨
        first.minute = second.minute ∧ first.second < second.second))

/-- Seconds are in the order of their dates and times. -/
theorem lt_iff_isBefore {first second : Int} :
    first < second ↔ (ofSeconds first).IsBefore (ofSeconds second) := by
  have day : ∀ seconds, (ofSeconds seconds).date.dayNumber = seconds / secondsPerDay :=
    fun _ => CivilDate.dayNumber_ofDayNumber _
  have dates : (ofSeconds first).date.IsBefore (ofSeconds second).date ↔
      first / secondsPerDay < second / secondsPerDay := by
    rw [← day, ← day]
    exact (CivilDate.dayNumber_lt_iff (CivilDate.exists_ofDayNumber _)
      (CivilDate.exists_ofDayNumber _)).symm
  have date : (ofSeconds first).date = (ofSeconds second).date ↔
      first / secondsPerDay = second / secondsPerDay := by
    constructor
    · intro same
      rw [← day, ← day, same]
    · exact fun same => congrArg CivilDate.ofDayNumber same
  rw [IsBefore, dates, date]
  simp only [ofSeconds, secondsPerDay]
  omega

theorem ofSeconds_inj {first second : Int} :
    ofSeconds first = ofSeconds second ↔ first = second := by
  constructor
  · intro same
    rw [← seconds_ofSeconds first, same, seconds_ofSeconds]
  · exact fun same => congrArg ofSeconds same

end Fields

/-- In the years of four digits, the texts of seconds come in the order of the seconds, and for
one second in that of what follows them. -/
theorem renderSecond_append_lt_iff {first second : Int}
    (low : 0 ≤ (Fields.ofSeconds first).year) (high : (Fields.ofSeconds first).year ≤ 9999)
    (low' : 0 ≤ (Fields.ofSeconds second).year) (high' : (Fields.ofSeconds second).year ≤ 9999)
    {rest rest' : List Char} :
    (renderSecond first ++ rest).map byteOf < (renderSecond second ++ rest').map byteOf ↔
      first < second ∨ first = second ∧ rest.map byteOf < rest'.map byteOf := by
  have range := Fields.inRange_iff.mp (Fields.inRange_ofSeconds first)
  have range' := Fields.inRange_iff.mp (Fields.inRange_ofSeconds second)
  rw [Fields.lt_iff_isBefore, ← Fields.ofSeconds_inj, renderSecond_append, renderSecond_append]
  generalize Fields.ofSeconds first = fields at *
  generalize Fields.ofSeconds second = fields' at *
  obtain ⟨year, month, day, hour, minute, second⟩ := fields
  obtain ⟨year', month', day', hour', minute', second'⟩ := fields'
  dsimp only at *
  -- Number by number, with the marks in between the same on both sides.
  simp only [dateTimeChars, twoDigits, List.map_append, List.map_cons]
  simp (disch := omega) only [fixedDigits_append_lt_iff, List.cons_lt_cons_iff, UInt8.lt_irrefl,
    false_or, true_and]
  simp only [Fields.IsBefore, CivilDate.IsBefore, Fields.date, Fields.mk.injEq,
    CivilDate.mk.injEq]
  by_cases following : rest.map byteOf < rest'.map byteOf
  · simp only [following, and_true]
    omega
  · simp only [following, and_false, or_false]
    omega

/-! ## Instants -/

variable {time first second : Instant}

/-- From 1970 on, whole milliseconds are whole seconds with the milliseconds beyond them. -/
theorem ediv_nanosPerMilli (since : 0 ≤ time.nanos) :
    time.nanos / nanosPerMilli = time.wholeSeconds * 1000 + time.spareMillis ∧
      0 ≤ time.spareMillis := by
  have cut := time.nanos_cutToMillis
  have readable := isReadable_iff.mp (isReadable_of_nonneg since)
  rw [cutToMillis, Int.tdiv_eq_ediv_of_nonneg since] at cut
  simp only [nanosPerSecond, nanosPerMilli] at *
  omega

/-- The text of an instant from 1970 on, with the digits of its milliseconds. -/
theorem renderChars_of_nonneg (since : 0 ≤ time.nanos) :
    time.renderChars =
      renderSecond time.wholeSeconds ++
        ('.' :: fixedDigits 3 time.spareMillis.toNat ++ ['Z']) := by
  rw [renderChars_eq, renderMillis, if_pos (ediv_nanosPerMilli since).2]

theorem bytes_render (since : 0 ≤ time.nanos) :
    bytes time.render = time.renderChars.map byteOf := by
  refine bytes_ofList ?_
  rw [renderChars_of_nonneg since]
  simp [renderSecond, twoDigits]

theorem length_bytes_render (since : 0 ≤ time.nanos) : (bytes time.render).length = 24 := by
  rw [bytes_render since, List.length_map, renderChars_of_nonneg since]
  simp [length_renderSecond]

theorem render_lt_iff (since : 0 ≤ first.nanos) (fits : first.Fits) (since' : 0 ≤ second.nanos)
    (fits' : second.Fits) :
    bytes first.render < bytes second.render ↔
      first.nanos / nanosPerMilli < second.nanos / nanosPerMilli := by
  obtain ⟨millis, low⟩ := ediv_nanosPerMilli since
  obtain ⟨millis', low'⟩ := ediv_nanosPerMilli since'
  have high := first.spareMillis_bounds.2
  have high' := second.spareMillis_bounds.2
  rw [bytes_render since, bytes_render since', renderChars_of_nonneg since,
    renderChars_of_nonneg since', renderSecond_append_lt_iff fits.year_bounds.1
      fits.year_bounds.2 fits'.year_bounds.1 fits'.year_bounds.2, millis, millis']
  simp only [List.map_append, List.map_cons, List.cons_append, List.cons_lt_cons_iff,
    UInt8.lt_irrefl, false_or, true_and]
  rw [fixedDigits_append_lt_iff low (by omega) low' (by omega)]
  simp only [List.lt_irrefl, and_false, or_false]
  omega

theorem render_eq_iff (since : 0 ≤ first.nanos) (fits : first.Fits) (since' : 0 ≤ second.nanos)
    (fits' : second.Fits) :
    first.render = second.render ↔
      first.nanos / nanosPerMilli = second.nanos / nanosPerMilli := by
  constructor
  · intro same
    have upwards := render_lt_iff since fits since' fits'
    have downwards := render_lt_iff since' fits' since fits
    rw [same] at upwards downwards
    have level := @List.lt_irrefl UInt8 _ _ (bytes second.render)
    simp only [level, false_iff] at upwards downwards
    omega
  · intro same
    obtain ⟨millis, low⟩ := ediv_nanosPerMilli since
    obtain ⟨millis', low'⟩ := ediv_nanosPerMilli since'
    have bounds := first.spareMillis_bounds
    have bounds' := second.spareMillis_bounds
    have seconds : first.wholeSeconds = second.wholeSeconds := by omega
    have spare : first.spareMillis = second.spareMillis := by omega
    rw [render, render, renderChars_eq, renderChars_eq, seconds, spare]

/-- From 1970 until the 64-bit count of nanoseconds ends, the texts of instants are 24 bytes
long and sort, byte by byte, as the instants do by their whole milliseconds; they are equal
exactly for instants in one millisecond. -/
theorem text_order_is_time_order (since : 0 ≤ first.nanos) (inReach : first.nanos < 2 ^ 63)
    (since' : 0 ≤ second.nanos) (inReach' : second.nanos < 2 ^ 63) :
    (bytes first.render < bytes second.render ↔
        first.nanos / nanosPerMilli < second.nanos / nanosPerMilli) ∧
      (first.render = second.render ↔
        first.nanos / nanosPerMilli = second.nanos / nanosPerMilli) ∧
      (bytes first.render).length = 24 ∧ (bytes second.render).length = 24 := by
  have fits : first.Fits := fits_iff.mpr (by omega)
  have fits' : second.Fits := fits_iff.mpr (by omega)
  exact ⟨render_lt_iff since fits since' fits', render_eq_iff since fits since' fits',
    length_bytes_render since, length_bytes_render since'⟩

/-- The last nanosecond of a leap day and the first of the day after it. -/
theorem text_order_is_time_order_after_leapDay :
    render ⟨1709251199999999999⟩ = "2024-02-29T23:59:59.999Z" ∧
      render ⟨1709251200000000000⟩ = "2024-03-01T00:00:00.000Z" ∧
      (0 : Int) ≤ 1709251199999999999 ∧ (1709251199999999999 : Int) < 2 ^ 63 ∧
      (0 : Int) ≤ 1709251200000000000 ∧ (1709251200000000000 : Int) < 2 ^ 63 ∧
      bytes (render ⟨1709251199999999999⟩) < bytes (render ⟨1709251200000000000⟩) := by
  obtain ⟨order, -⟩ := @text_order_is_time_order ⟨1709251199999999999⟩ ⟨1709251200000000000⟩
    (by decide) (by decide) (by decide) (by decide)
  exact ⟨by decide +kernel, by decide +kernel, by decide, by decide, by decide, by decide,
    order.mpr (by decide)⟩

end Instant

end AgentKit
