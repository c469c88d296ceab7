/-
# Reading timestamps back

The text of an instant can be read back as the instant cut to milliseconds, unless
its milliseconds are negative. Instants are cut toward the epoch, second and
milliseconds alike, so that from 1970 on this is always so. Before 1970 it is so
for instants that lie less than a millisecond before a whole second; all others
have a text with a minus sign in its fraction, which the reader refuses.

In the other direction, the instant that a text is read as is one of whole
milliseconds, unless the text denotes a time out of reach of 64 bits: then the count
wraps around, and never lands on a whole millisecond.
-/

import AgentKit.Proofs.Time.Scanning

namespace AgentKit

namespace CivilDate

theorem daysInMonth_le (year month : Int) : daysInMonth year month ≤ 31 := by
  unfold daysInMonth
  split
  · split <;> decide
  · split <;> decide

/-- The days from the first of March of the year zero to the end of the year 9999. -/
theorem year_ofDayNumber_bounds {number : Int} (low : -epochOffset ≤ number)
    (high : number ≤ 2932896) :
    0 ≤ (ofDayNumber number).year ∧ (ofDayNumber number).year ≤ 9999 := by
  have same := dayNumber_ofDayNumber number
  have inCalendar := exists_ofDayNumber number
  obtain ⟨dayLow, dayHigh, -⟩ := dayOfYear_of_exists inCalendar
  have short := yearLength_le (ofDayNumber number).marchYear
  generalize ofDayNumber number = date at *
  obtain ⟨monthLow, monthHigh, firstDay, -⟩ := inCalendar
  simp only [dayNumber, daysBeforeYear, daysPerEra, epochOffset] at same low
  have eraDays : 365 * (date.marchYear % 400) + date.marchYear % 400 / 4
      - date.marchYear % 400 / 100 ≤ 145731 := by omega
  by_cases early : date.month ≤ 2
  · simp only [marchYear, marchMonth, daysBeforeMonth, if_pos early] at *
    exact ⟨by omega, by omega⟩
  · simp only [marchYear, marchMonth, daysBeforeMonth, if_neg early] at *
    exact ⟨by omega, by omega⟩

end CivilDate

namespace Instant

open Text

/-! ## The second -/

namespace Fields

/-- The date and time of a number of seconds since the epoch. -/
def ofSeconds (seconds : Int) : Fields :=
  let date := CivilDate.ofDayNumber (seconds / secondsPerDay)
  let rest := seconds % secondsPerDay
  ⟨date.year, date.month, date.day, rest / 3600, rest / 60 % 60, rest % 60⟩

theorem seconds_ofSeconds (seconds : Int) : (ofSeconds seconds).seconds = seconds := by
  have date : CivilDate.dayNumber ⟨(ofSeconds seconds).year, (ofSeconds seconds).month,
      (ofSeconds seconds).day⟩ = seconds / secondsPerDay := CivilDate.dayNumber_ofDayNumber _
  unfold Fields.seconds
  rw [date]
  simp only [ofSeconds, secondsPerDay]
  omega

theorem inRange_ofSeconds (seconds : Int) : (ofSeconds seconds).inRange := by
  obtain ⟨monthLow, monthHigh, dayLow, dayHigh⟩ :=
    CivilDate.exists_ofDayNumber (seconds / secondsPerDay)
  rw [inRange_iff]
  refine ⟨⟨monthLow, monthHigh⟩,
    ⟨dayLow, Int.le_trans dayHigh (CivilDate.daysInMonth_le _ _)⟩, ?_⟩
  simp only [ofSeconds, secondsPerDay]
  omega

end Fields

theorem length_renderSecond (seconds : Int) : (renderSecond seconds).length = 19 := by
  simp [renderSecond, twoDigits]

theorem isNumeral_twoDigits (n : Int) : IsNumeral 2 (twoDigits n) :=
  isNumeral_fixedDigits 2 n.toNat

theorem natOfDigits_twoDigits {n : Int} (low : 0 ≤ n) (high : n < 100) :
    (natOfDigits (twoDigits n) : Int) = n := by
  rw [twoDigits, natOfDigits_fixedDigits (show n.toNat < 100 by omega), Int.toNat_of_nonneg low]

/-- A second is written as its date and time with every number in its full width. -/
theorem renderSecond_append (seconds : Int) (rest : List Char) :
    renderSecond seconds ++ rest =
      dateTimeChars (fixedDigits 4 (Fields.ofSeconds seconds).year.toNat)
        (twoDigits (Fields.ofSeconds seconds).month) (twoDigits (Fields.ofSeconds seconds).day)
        (twoDigits (Fields.ofSeconds seconds).hour) (twoDigits (Fields.ofSeconds seconds).minute)
        (twoDigits (Fields.ofSeconds seconds).second) rest := by
  simp [renderSecond, dateTimeChars, Fields.ofSeconds]

/-- In the years of four digits, a second is read as its date and time. -/
theorem scanFields?_renderSecond {seconds : Int}
    (low : 0 ≤ (Fields.ofSeconds seconds).year) (high : (Fields.ofSeconds seconds).year ≤ 9999)
    (rest : List Char) :
    scanFields? (renderSecond seconds ++ rest) = some (Fields.ofSeconds seconds, rest) := by
  obtain ⟨month, day, hour, minute, second⟩ :=
    Fields.inRange_iff.mp (Fields.inRange_ofSeconds seconds)
  have year : (natOfDigits (fixedDigits 4 (Fields.ofSeconds seconds).year.toNat) : Int) =
      (Fields.ofSeconds seconds).year := by
    rw [natOfDigits_fixedDigits (show _ < 10000 by omega), Int.toNat_of_nonneg low]
  rw [renderSecond_append, scanFields?_dateTimeChars (isNumeral_fixedDigits 4 _) (isNumeral_twoDigits _)
    (isNumeral_twoDigits _) (isNumeral_twoDigits _) (isNumeral_twoDigits _) (isNumeral_twoDigits _),
    year, natOfDigits_twoDigits (by omega) (by omega), natOfDigits_twoDigits (by omega) (by omega),
    natOfDigits_twoDigits (by omega) (by omega), natOfDigits_twoDigits (by omega) (by omega),
    natOfDigits_twoDigits (by omega) (by omega)]

/-- What follows a second decides whether a text is a timestamp. -/
theorem readNanos?_renderSecond {seconds : Int}
    (low : 0 ≤ (Fields.ofSeconds seconds).year) (high : (Fields.ofSeconds seconds).year ≤ 9999)
    (rest : List Char) :
    readNanos? (renderSecond seconds ++ rest) =
      (scanFraction? rest).bind fun (millis, rest) =>
        if rest = ['Z'] || rest = ['z'] then
          some (seconds * nanosPerSecond + millis * nanosPerMilli)
        else none := by
  have consumed : (renderSecond seconds ++ rest).length - rest.length = 19 := by
    simp [length_renderSecond]
  rw [readNanos?_of_scanFields? (scanFields?_renderSecond low high rest) consumed
    (Fields.inRange_ofSeconds seconds), Fields.seconds_ofSeconds]

/-! ## The milliseconds -/

/-- Milliseconds are read as they are written, unless they are negative. -/
theorem scanFraction?_renderMillis {millis : Int} (low : 0 ≤ millis) (high : millis ≤ 999) :
    scanFraction? ('.' :: renderMillis millis ++ ['Z']) = some (millis, ['Z']) := by
  have numeral := isNumeral_fixedDigits 3 millis.toNat
  have present : fixedDigits 3 millis.toNat ≠ [] := by
    intro none
    rw [none] at numeral
    cases numeral.1
  have three : (fixedDigits 3 millis.toNat ++ ['0', '0']).take 3 = fixedDigits 3 millis.toNat := by
    rw [List.take_append_of_le_length (Nat.le_of_eq numeral.1.symm),
      List.take_of_length_le (Nat.le_of_eq numeral.1)]
  rw [renderMillis, if_pos low, List.cons_append,
    scanFraction?_append present numeral.2 (by simp), three,
    natOfDigits_fixedDigits (show _ < 1000 by omega), Int.toNat_of_nonneg low]

theorem scanFraction?_renderMillis_of_neg {millis : Int} (negative : millis < 0) :
    scanFraction? ('.' :: renderMillis millis ++ ['Z']) = none := by
  rw [renderMillis, if_neg (Int.not_le.mpr negative)]
  split <;> simp [scanFraction?]

/-! ## Instants -/

/-- Division toward zero leaves a remainder on the side of the dividend. -/
theorem tdiv_cases (n : Int) {divisor : Int} (positive : 0 < divisor) :
    0 ≤ n ∧ n.tdiv divisor * divisor ≤ n ∧ n < n.tdiv divisor * divisor + divisor ∨
      n < 0 ∧ n ≤ n.tdiv divisor * divisor ∧ n.tdiv divisor * divisor - divisor < n := by
  have whole := Int.mul_tdiv_add_tmod n divisor
  rw [Int.mul_comm] at whole
  rcases Int.lt_or_le n 0 with negative | low
  · have low := Int.tmod_nonneg divisor (show 0 ≤ -n by omega)
    have high := Int.tmod_lt_of_pos (-n) positive
    rw [Int.neg_tmod] at low high
    exact .inr ⟨negative, by omega, by omega⟩
  · have rest := Int.tmod_nonneg divisor low
    have high := Int.tmod_lt_of_pos n positive
    exact .inl ⟨low, by omega, by omega⟩

/-- The seconds of an instant, cut toward the epoch. -/
def wholeSeconds (time : Instant) : Int :=
  time.nanos.tdiv nanosPerSecond

/-- The milliseconds of an instant beyond its seconds, cut toward the epoch. -/
def spareMillis (time : Instant) : Int :=
  (time.nanos.tmod nanosPerSecond).tdiv nanosPerMilli

variable {time : Instant}

/-- The parts of an instant make up the instant cut to milliseconds. -/
theorem nanos_cutToMillis (time : Instant) :
    time.cutToMillis.nanos =
      time.wholeSeconds * nanosPerSecond + time.spareMillis * nanosPerMilli := by
  have seconds := tdiv_cases time.nanos (show 0 < nanosPerSecond by decide)
  have millis := tdiv_cases time.nanos (show 0 < nanosPerMilli by decide)
  have spare := tdiv_cases (time.nanos.tmod nanosPerSecond) (show 0 < nanosPerMilli by decide)
  have rest := Int.tmod_def time.nanos nanosPerSecond
  simp only [cutToMillis, wholeSeconds, spareMillis, nanosPerSecond, nanosPerMilli] at *
  omega

theorem spareMillis_bounds (time : Instant) :
    -999 ≤ time.spareMillis ∧ time.spareMillis ≤ 999 := by
  have seconds := tdiv_cases time.nanos (show 0 < nanosPerSecond by decide)
  have spare := tdiv_cases (time.nanos.tmod nanosPerSecond) (show 0 < nanosPerMilli by decide)
  have rest := Int.tmod_def time.nanos nanosPerSecond
  simp only [spareMillis, nanosPerSecond, nanosPerMilli] at *
  omega

/-- Cutting an instant moves it toward the epoch, by less than a millisecond. -/
theorem cutToMillis_bounds (time : Instant) :
    0 ≤ time.nanos ∧ 0 ≤ time.cutToMillis.nanos ∧ time.cutToMillis.nanos ≤ time.nanos ∧
        time.nanos < time.cutToMillis.nanos + nanosPerMilli ∨
      time.nanos < 0 ∧ time.cutToMillis.nanos ≤ 0 ∧ time.nanos ≤ time.cutToMillis.nanos ∧
        time.cutToMillis.nanos - nanosPerMilli < time.nanos := by
  have millis := tdiv_cases time.nanos (show 0 < nanosPerMilli by decide)
  simp only [cutToMillis, nanosPerMilli] at *
  omega

/-- An instant that fits in 64 bits. -/
def Fits (time : Instant) : Prop :=
  IntFormat.int64.holds time.nanos

instance (time : Instant) : Decidable time.Fits :=
  inferInstanceAs (Decidable (IntFormat.int64.holds time.nanos))

theorem fits_iff :
    time.Fits ↔ -9223372036854775808 ≤ time.nanos ∧ time.nanos ≤ 9223372036854775807 :=
  IntFormat.holds_int64_iff

theorem Fits.cutToMillis (fits : time.Fits) : time.cutToMillis.Fits := by
  have range := fits_iff.mp fits
  have cut := time.cutToMillis_bounds
  rw [fits_iff]
  omega

/-- The years of instants that fit in 64 bits have four digits. -/
theorem Fits.year_bounds (fits : time.Fits) :
    0 ≤ (Fields.ofSeconds time.wholeSeconds).year ∧
      (Fields.ofSeconds time.wholeSeconds).year ≤ 9999 := by
  have range := fits_iff.mp fits
  have seconds := tdiv_cases time.nanos (show 0 < nanosPerSecond by decide)
  have day : -CivilDate.epochOffset ≤ time.wholeSeconds / secondsPerDay ∧
      time.wholeSeconds / secondsPerDay ≤ 2932896 := by
    simp only [wholeSeconds, secondsPerDay, nanosPerSecond, CivilDate.epochOffset] at *
    omega
  exact CivilDate.year_ofDayNumber_bounds day.1 day.2

theorem renderChars_eq (time : Instant) :
    time.renderChars =
      renderSecond time.wholeSeconds ++ ('.' :: renderMillis time.spareMillis ++ ['Z']) := by
  simp [renderChars, wholeSeconds, spareMillis]

/-- The text of an instant is read as the instant cut to milliseconds, or not at all. -/
theorem Fits.readNanos?_renderChars (fits : time.Fits) :
    readNanos? time.renderChars =
      if 0 ≤ time.spareMillis then some time.cutToMillis.nanos else none := by
  rw [renderChars_eq, readNanos?_renderSecond fits.year_bounds.1 fits.year_bounds.2]
  split
  · next low =>
      rw [scanFraction?_renderMillis low time.spareMillis_bounds.2, nanos_cutToMillis]
      rfl
  · next negative =>
      rw [scanFraction?_renderMillis_of_neg (Int.not_le.mp negative)]
      rfl

/-- An instant whose part beyond the whole seconds does not reach a negative
millisecond. -/
def IsReadable (time : Instant) : Prop :=
  -nanosPerMilli < time.nanos.tmod nanosPerSecond

instance (time : Instant) : Decidable time.IsReadable :=
  inferInstanceAs (Decidable (_ < _))

theorem isReadable_iff : time.IsReadable ↔ 0 ≤ time.spareMillis := by
  have spare := tdiv_cases (time.nanos.tmod nanosPerSecond) (show 0 < nanosPerMilli by decide)
  simp only [IsReadable, spareMillis, nanosPerMilli] at *
  omega

theorem isReadable_of_nonneg (since : 0 ≤ time.nanos) : time.IsReadable := by
  have rest := Int.tmod_nonneg nanosPerSecond since
  simp only [IsReadable, nanosPerMilli]
  omega

theorem Fits.parse_render (fits : time.Fits) (readable : time.IsReadable) :
    parse time.render = .ok time.cutToMillis := by
  have read : readChars? time.renderChars = some time.cutToMillis := by
    rw [readChars?, fits.readNanos?_renderChars, if_pos (isReadable_iff.mp readable),
      Option.map_some, wrap64_eq_self fits.cutToMillis]
  rw [parse, render, String.toList_ofList, read]

theorem Fits.parse_render_of_not_isReadable (fits : time.Fits) (unreadable : ¬ time.IsReadable) :
    parse time.render = .error
      (.make .validationFormat
        ("invalid RFC 3339 UTC timestamp " ++ Text.quoted time.render)) := by
  have read : readChars? time.renderChars = none := by
    rw [readChars?, fits.readNanos?_renderChars, if_neg (mt isReadable_iff.mpr unreadable),
      Option.map_none]
  rw [parse, render, String.toList_ofList, read]

/-- The text of an instant that fits in 64 bits can be read if and only if its part
beyond the whole seconds does not reach a negative millisecond, which it never does
from 1970 on. What is read is the instant cut to milliseconds, which is less than a
millisecond away. -/
theorem parse_render_iff (fits : time.Fits) :
    ((∃ read, parse time.render = .ok read) ↔ time.IsReadable) ∧
      (∀ read, parse time.render = .ok read →
        read = time.cutToMillis ∧ (read.nanos - time.nanos).natAbs < nanosPerMilli) ∧
      (0 ≤ time.nanos → time.IsReadable) := by
  refine ⟨⟨?_, fun readable => ⟨_, fits.parse_render readable⟩⟩, ?_, isReadable_of_nonneg⟩
  · rintro ⟨read, accepted⟩
    refine Classical.byContradiction fun unreadable => ?_
    cases (fits.parse_render_of_not_isReadable unreadable).symm.trans accepted
  · intro read accepted
    have readable : time.IsReadable := Classical.byContradiction fun unreadable => by
      cases (fits.parse_render_of_not_isReadable unreadable).symm.trans accepted
    cases (fits.parse_render readable).symm.trans accepted
    refine ⟨rfl, ?_⟩
    have cut := time.cutToMillis_bounds
    simp only [nanosPerMilli] at *
    omega

/-- Half a microsecond before a whole second of 1969. -/
theorem parse_render_iff_of_before_epoch :
    Fits ⟨-2000000500⟩ ∧ IsReadable ⟨-2000000500⟩ ∧
      parse (render ⟨-2000000500⟩) = .ok ⟨-2000000000⟩ := by
  have fits : Fits ⟨-2000000500⟩ := fits_iff.mpr (by decide)
  have readable : IsReadable ⟨-2000000500⟩ := by decide
  obtain ⟨accepted, cut, _⟩ := parse_render_iff fits
  obtain ⟨read, accepted⟩ := accepted.mpr readable
  obtain ⟨rfl, _⟩ := cut read accepted
  exact ⟨fits, readable, accepted⟩

/-- The last millisecond of 1969 has a text that is no timestamp. -/
theorem unreadable_before_epoch :
    Fits ⟨-1000000⟩ ∧ render ⟨-1000000⟩ = "1970-01-01T00:00:00.-01Z" ∧
      ¬ ∃ read, parse (render ⟨-1000000⟩) = .ok read := by
  have fits : Fits ⟨-1000000⟩ := fits_iff.mpr (by decide)
  refine ⟨fits, by decide +kernel, ?_⟩
  rintro ⟨read, accepted⟩
  have unreadable : ¬ IsReadable ⟨-1000000⟩ := by decide
  cases (fits.parse_render_of_not_isReadable unreadable).symm.trans accepted

/-! ## Texts -/

theorem parse_eq_ok_iff {text : String} :
    parse text = .ok time ↔ ∃ nanos, readNanos? text.toList = some nanos ∧ time = ⟨wrap64 nanos⟩ := by
  unfold parse readChars?
  cases readNanos? text.toList <;> simp [eq_comm]

theorem fits_of_parse {text : String} (read : parse text = .ok time) : time.Fits := by
  obtain ⟨nanos, -, rfl⟩ := parse_eq_ok_iff.mp read
  exact holds_wrap64 nanos

/-- A text that does not denote a time out of reach of 64 bits. -/
def TextFits (text : String) : Prop :=
  ∀ nanos ∈ readNanos? text.toList, Fits ⟨nanos⟩

instance (text : String) : Decidable (TextFits text) :=
  inferInstanceAs (Decidable (∀ nanos ∈ readNanos? text.toList, Fits ⟨nanos⟩))

theorem cutToMillis_eq_self_iff : time.cutToMillis = time ↔ nanosPerMilli ∣ time.nanos := by
  obtain ⟨nanos⟩ := time
  have millis := tdiv_cases nanos (show 0 < nanosPerMilli by decide)
  simp only [cutToMillis, nanosPerMilli, mk.injEq] at *
  omega

/-- Turns of a 64-bit count that make up whole milliseconds come in multiples of 15625:
beyond the power of two that both have in common, a turn is invertible. -/
theorem dvd_turns {turns millis : Int}
    (whole : turns * 0x10000000000000000 = nanosPerMilli * millis) : 15625 ∣ turns := by
  simp only [nanosPerMilli] at whole
  exact ⟨11479 * millis - 211750175222111943 * turns, by grind⟩

/-- A count of whole milliseconds that has wrapped around is none of whole milliseconds,
unless it is larger than those that a text denotes. -/
theorem turns_eq_zero {nanos turns : Int} (whole : nanosPerMilli ∣ nanos)
    (bound : nanos.natAbs < 1000000000000000000000)
    (range : -0x8000000000000000 ≤ nanos - turns * 0x10000000000000000 ∧
      nanos - turns * 0x10000000000000000 < 0x8000000000000000)
    (wrapped : nanosPerMilli ∣ nanos - turns * 0x10000000000000000) : turns = 0 := by
  obtain ⟨millis, jump⟩ : nanosPerMilli ∣ turns * 0x10000000000000000 := by
    have jump := Int.dvd_sub whole wrapped
    rwa [Int.sub_sub_self] at jump
  have many := dvd_turns jump
  clear whole wrapped jump
  omega

/-- A text is read as an instant of whole milliseconds if and only if the count of its
nanoseconds does not wrap around. -/
theorem cutToMillis_eq_self_iff_of_parse {text : String} (read : parse text = .ok time) :
    time.cutToMillis = time ↔ TextFits text := by
  obtain ⟨nanos, found, rfl⟩ := parse_eq_ok_iff.mp read
  obtain ⟨whole, bound⟩ := readNanos?_bounds found
  rw [cutToMillis_eq_self_iff]
  constructor
  · intro divides nanos' found'
    cases found'.symm.trans found
    obtain ⟨turns, wrapped⟩ := exists_wrap64_eq nanos
    have range := IntFormat.holds_signed_iff.mp (holds_wrap64 nanos)
    have none : turns = 0 := turns_eq_zero whole bound (wrapped ▸ range) (wrapped ▸ divides)
    have same : nanos = wrap64 nanos := by rw [wrapped, none, Int.zero_mul, Int.sub_zero]
    rw [same]
    exact holds_wrap64 nanos
  · intro fits
    rw [wrap64_eq_self (fits nanos found)]
    exact whole

end Instant

end AgentKit
