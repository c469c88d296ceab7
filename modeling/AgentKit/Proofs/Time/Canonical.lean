/-
# Canonical timestamps

A stamp is a timestamp in its parts: every number of its date and time in its full
width, a fraction of any length, which may be missing, and a zone mark in either case.
If its date is in the calendar and its time is on the clock, then from 1970 until the
64-bit count of nanoseconds ends it is read as the instant that it denotes, cut to
milliseconds, and that instant is written as the stamp again, with three digits of the
fraction and a capital mark.

What a stamp denotes is told by counting days, not by the closed form of the calendar.
-/

import AgentKit.Proofs.Time.DayCount
import AgentKit.Proofs.Time.ReadBack

namespace AgentKit

namespace Text

theorem digitChar_of_isDigit {c : Char} (digit : c.isDigit) :
    Nat.digitChar (c.toNat - '0'.toNat) = c := by
  have range : 48 ≤ c.toNat ∧ c.toNat ≤ 57 := toNat_of_isDigit digit
  have zero : '0'.toNat = 48 := rfl
  apply Char.toNat_inj.mp
  rw [zero, Nat.toNat_digitChar_of_lt_ten (by omega)]
  omega

/-- A numeral is what its number is written as in its width. -/
theorem fixedDigits_natOfDigits {width : Nat} {digits : List Char}
    (numeral : IsNumeral width digits) : fixedDigits width (natOfDigits digits) = digits := by
  obtain ⟨length, all⟩ := numeral
  induction width generalizing digits with
  | zero => rw [fixedDigits, List.eq_nil_of_length_eq_zero length]
  | succ width ih =>
      obtain rfl | ⟨front, last, rfl⟩ := List.eq_nil_or_concat digits
      · cases length
      · rw [List.concat_eq_append] at length all ⊢
        have lastDigit := all last (by simp)
        have frontDigits := ih (by simpa using length) fun c inside => all c (by simp [inside])
        have value : last.toNat - '0'.toNat < 10 := by
          have range := toNat_of_isDigit lastDigit
          change last.toNat - 48 < 10
          omega
        rw [natOfDigits_append_singleton, fixedDigits, Nat.mul_add_div (by decide),
          Nat.div_eq_of_lt value, Nat.add_zero, frontDigits, Nat.mul_add_mod,
          Nat.mod_eq_of_lt value, digitChar_of_isDigit lastDigit]

end Text

namespace Instant

open Text

namespace Fields

variable {fields : Fields}

/-- A date in the calendar and a time on the clock are those of their second. -/
theorem ofSeconds_seconds (date : CivilDate.Exists ⟨fields.year, fields.month, fields.day⟩)
    (hourLow : 0 ≤ fields.hour) (hourHigh : fields.hour ≤ 23) (minuteLow : 0 ≤ fields.minute)
    (minuteHigh : fields.minute ≤ 59) (secondLow : 0 ≤ fields.second)
    (secondHigh : fields.second ≤ 59) : ofSeconds fields.seconds = fields := by
  obtain ⟨year, month, day, hour, minute, second⟩ := fields
  dsimp only at *
  have days : (Fields.seconds ⟨year, month, day, hour, minute, second⟩) / secondsPerDay =
      CivilDate.dayNumber ⟨year, month, day⟩ := by
    simp only [Fields.seconds, secondsPerDay]
    omega
  have rest : (Fields.seconds ⟨year, month, day, hour, minute, second⟩) % secondsPerDay =
      hour * 3600 + minute * 60 + second := by
    simp only [Fields.seconds, secondsPerDay]
    omega
  rw [ofSeconds, days, rest, CivilDate.ofDayNumber_dayNumber date]
  simp only [mk.injEq, true_and]
  omega

end Fields

end Instant

/-! ## Stamps -/

/-- The parts of a timestamp as they are written. A fraction without digits is left out. -/
structure Stamp where
  year : List Char
  month : List Char
  day : List Char
  hour : List Char
  minute : List Char
  second : List Char
  fraction : List Char
  zone : Char

namespace Stamp

open Text Instant

/-- The date and time of a stamp with what follows them. -/
def dateTime (stamp : Stamp) (rest : List Char) : List Char :=
  dateTimeChars stamp.year stamp.month stamp.day stamp.hour stamp.minute stamp.second rest

/-- The fraction with its point, if there is one. -/
def fractionChars (stamp : Stamp) : List Char :=
  if stamp.fraction = [] then [] else '.' :: stamp.fraction

def text (stamp : Stamp) : String :=
  String.ofList (stamp.dateTime (stamp.fractionChars ++ [stamp.zone]))

/-- The first three digits of the fraction, with zeros in place of those that are missing. -/
def milliDigits (stamp : Stamp) : List Char :=
  (stamp.fraction ++ ['0', '0', '0']).take 3

/-- The text with exactly three digits of the fraction and a capital mark. -/
def milliText (stamp : Stamp) : String :=
  String.ofList (stamp.dateTime ('.' :: stamp.milliDigits ++ ['Z']))

/-- The numbers of the date and time. -/
def fields (stamp : Stamp) : Fields :=
  ⟨natOfDigits stamp.year, natOfDigits stamp.month, natOfDigits stamp.day, natOfDigits stamp.hour,
    natOfDigits stamp.minute, natOfDigits stamp.second⟩

def date (stamp : Stamp) : CivilDate :=
  ⟨stamp.fields.year, stamp.fields.month, stamp.fields.day⟩

/-- The seconds from the beginning of 1970. -/
def seconds (stamp : Stamp) : Int :=
  stamp.date.daysSinceEpoch * 86400 + stamp.fields.hour * 3600 + stamp.fields.minute * 60
    + stamp.fields.second

/-- The instant that a stamp denotes, cut to milliseconds. -/
def instant (stamp : Stamp) : Instant :=
  ⟨stamp.seconds * nanosPerSecond + natOfDigits stamp.milliDigits * nanosPerMilli⟩

/-- The fraction is read as its first three digits. -/
theorem scanFraction?_fractionChars {stamp : Stamp} (fraction : ∀ c ∈ stamp.fraction, c.isDigit)
    (zone : stamp.zone = 'Z' ∨ stamp.zone = 'z') :
    scanFraction? (stamp.fractionChars ++ [stamp.zone]) =
      some ((natOfDigits stamp.milliDigits : Int), [stamp.zone]) := by
  by_cases none : stamp.fraction = []
  · rw [fractionChars, if_pos none, milliDigits, none]
    rcases zone with mark | mark
    · rw [mark]
      rfl
    · rw [mark]
      rfl
  · have three : stamp.milliDigits = (stamp.fraction ++ ['0', '0']).take 3 := by
      have enough : 3 ≤ (stamp.fraction ++ ['0', '0']).length := by
        have := List.length_pos_iff.mpr none
        rw [List.length_append, List.length_cons, List.length_singleton]
        omega
      rw [← List.take_append_of_le_length enough, List.append_assoc]
      rfl
    have stop : ∀ c ∈ [stamp.zone].head?, ¬ c.isDigit := by
      rcases zone with mark | mark <;> simp [mark]
    rw [fractionChars, if_neg none, three]
    exact scanFraction?_append none fraction stop

/-- Every number has its full width, the date is in the calendar, and the time is on the clock,
where a minute may have a leap second. -/
structure IsStrict (stamp : Stamp) : Prop where
  year : IsNumeral 4 stamp.year
  month : IsNumeral 2 stamp.month
  day : IsNumeral 2 stamp.day
  hour : IsNumeral 2 stamp.hour
  minute : IsNumeral 2 stamp.minute
  second : IsNumeral 2 stamp.second
  fraction : ∀ c ∈ stamp.fraction, c.isDigit
  zone : stamp.zone = 'Z' ∨ stamp.zone = 'z'
  date : stamp.date.Exists
  hourHigh : stamp.fields.hour ≤ 23
  minuteHigh : stamp.fields.minute ≤ 59
  secondHigh : stamp.fields.second ≤ 60

namespace IsStrict

variable {stamp : Stamp} (strict : stamp.IsStrict)

include strict

theorem inRange : stamp.fields.inRange := by
  obtain ⟨monthLow, monthHigh, dayLow, dayHigh⟩ := strict.date
  have short : stamp.fields.day ≤ 31 := Int.le_trans dayHigh (CivilDate.daysInMonth_le _ _)
  rw [Fields.inRange_iff]
  exact ⟨⟨monthLow, monthHigh⟩, ⟨dayLow, short⟩, ⟨Int.natCast_nonneg _, strict.hourHigh⟩,
    ⟨Int.natCast_nonneg _, strict.minuteHigh⟩, Int.natCast_nonneg _, strict.secondHigh⟩

theorem length_dateTime (rest : List Char) :
    (stamp.dateTime rest).length - rest.length = 19 := by
  simp only [dateTime, dateTimeChars, List.length_append, List.length_cons, strict.year.1,
    strict.month.1, strict.day.1, strict.hour.1, strict.minute.1, strict.second.1]
  omega

end IsStrict

/-- Every number has its full width, the date is in the calendar, and the time is on the
clock. -/
structure IsCanonical (stamp : Stamp) : Prop where
  year : IsNumeral 4 stamp.year
  month : IsNumeral 2 stamp.month
  day : IsNumeral 2 stamp.day
  hour : IsNumeral 2 stamp.hour
  minute : IsNumeral 2 stamp.minute
  second : IsNumeral 2 stamp.second
  fraction : ∀ c ∈ stamp.fraction, c.isDigit
  zone : stamp.zone = 'Z' ∨ stamp.zone = 'z'
  date : stamp.date.Exists
  hourHigh : stamp.fields.hour ≤ 23
  minuteHigh : stamp.fields.minute ≤ 59
  secondHigh : stamp.fields.second ≤ 59

namespace IsCanonical

variable {stamp : Stamp} (canonical : stamp.IsCanonical)

include canonical

theorem seconds_eq : stamp.fields.seconds = stamp.seconds := by
  obtain ⟨monthLow, monthHigh, -⟩ := canonical.date
  rw [Fields.seconds, seconds, ← CivilDate.dayNumber_eq_daysSinceEpoch
    (Int.natCast_nonneg _) monthLow monthHigh]
  rfl

theorem isStrict : stamp.IsStrict where
  year := canonical.year
  month := canonical.month
  day := canonical.day
  hour := canonical.hour
  minute := canonical.minute
  second := canonical.second
  fraction := canonical.fraction
  zone := canonical.zone
  date := canonical.date
  hourHigh := canonical.hourHigh
  minuteHigh := canonical.minuteHigh
  secondHigh := Int.le_trans canonical.secondHigh (by decide)

theorem isNumeral_milliDigits : IsNumeral 3 stamp.milliDigits := by
  refine ⟨by simp [milliDigits], ?_⟩
  intro c inside
  rcases List.mem_append.mp (List.mem_of_mem_take inside) with digit | zero
  · exact canonical.fraction c digit
  · simp only [List.mem_cons, List.not_mem_nil, or_false, or_self] at zero
    rw [zero]
    decide

/-- A canonical stamp is read as what it denotes, however large that is. -/
theorem readNanos?_text : readNanos? stamp.text.toList = some stamp.instant.nanos := by
  have scanned : scanFields? (stamp.dateTime (stamp.fractionChars ++ [stamp.zone])) =
      some (stamp.fields, stamp.fractionChars ++ [stamp.zone]) :=
    scanFields?_dateTimeChars canonical.year canonical.month canonical.day canonical.hour
      canonical.minute canonical.second _
  have mark : [stamp.zone] = ['Z'] ∨ [stamp.zone] = ['z'] := by
    simpa using canonical.zone
  rw [text, String.toList_ofList,
    readNanos?_of_scanFields? scanned (canonical.isStrict.length_dateTime _)
      canonical.isStrict.inRange,
    scanFraction?_fractionChars canonical.fraction canonical.zone, Option.bind_some]
  dsimp only
  rw [if_pos (by simpa using mark), canonical.seconds_eq]
  rfl

/-- The numbers of the date and time are found again in its second. -/
theorem ofSeconds_seconds : Fields.ofSeconds stamp.seconds = stamp.fields := by
  rw [← canonical.seconds_eq]
  exact Fields.ofSeconds_seconds canonical.date (Int.natCast_nonneg _) canonical.hourHigh
    (Int.natCast_nonneg _) canonical.minuteHigh (Int.natCast_nonneg _) canonical.secondHigh

/-- A second is written as the date and time that it was read from. -/
theorem renderSecond_append (rest : List Char) :
    renderSecond stamp.seconds ++ rest = stamp.dateTime rest := by
  rw [Instant.renderSecond_append, canonical.ofSeconds_seconds]
  simp only [fields, twoDigits, Int.toNat_natCast, fixedDigits_natOfDigits canonical.year,
    fixedDigits_natOfDigits canonical.month, fixedDigits_natOfDigits canonical.day,
    fixedDigits_natOfDigits canonical.hour, fixedDigits_natOfDigits canonical.minute,
    fixedDigits_natOfDigits canonical.second]
  rfl

/-- From 1970 on an instant of whole milliseconds falls into its second and its
milliseconds. -/
theorem parts_of_instant (since : 0 ≤ stamp.instant.nanos) :
    stamp.instant.wholeSeconds = stamp.seconds ∧
      stamp.instant.spareMillis = natOfDigits stamp.milliDigits := by
  have short : natOfDigits stamp.milliDigits < 1000 := by
    have bound := natOfDigits_lt canonical.isNumeral_milliDigits.2
    rwa [canonical.isNumeral_milliDigits.1] at bound
  have second := tdiv_cases stamp.instant.nanos (show 0 < nanosPerSecond by decide)
  have spare := tdiv_cases (stamp.instant.nanos.tmod nanosPerSecond)
    (show 0 < nanosPerMilli by decide)
  have rest := Int.tmod_def stamp.instant.nanos nanosPerSecond
  simp only [wholeSeconds, spareMillis, instant, nanosPerSecond, nanosPerMilli] at *
  omega

/-- From 1970 on the instant is written with the first three digits of the fraction. -/
theorem render_instant (since : 0 ≤ stamp.instant.nanos) :
    stamp.instant.render = stamp.milliText := by
  obtain ⟨seconds, millis⟩ := canonical.parts_of_instant since
  rw [render, milliText, renderChars_eq, seconds, millis, canonical.renderSecond_append,
    renderMillis, if_pos (Int.natCast_nonneg _), Int.toNat_natCast,
    fixedDigits_natOfDigits canonical.isNumeral_milliDigits]

end IsCanonical

/-- A canonical stamp that denotes an instant from 1970 on, within 64 bits of nanoseconds, is
read as that instant cut to milliseconds, and the instant is written as the stamp with exactly
three digits of its fraction. Only the instant that is cut has to keep to the limits, which is
the less to ask, as digits beyond the third one can only take it further. -/
theorem read_and_written {stamp : Stamp} (canonical : stamp.IsCanonical)
    (since : 0 ≤ stamp.instant.nanos) (fits : stamp.instant.Fits) :
    parse stamp.text = .ok stamp.instant ∧ stamp.instant.render = stamp.milliText := by
  refine ⟨parse_eq_ok_iff.mpr ⟨_, canonical.readNanos?_text, ?_⟩, canonical.render_instant since⟩
  rw [wrap64_eq_self fits]

/-- The last half second of a leap day. -/
def leapDay : Stamp where
  year := ['2', '0', '0', '0']
  month := ['0', '2']
  day := ['2', '9']
  hour := ['2', '3']
  minute := ['5', '9']
  second := ['5', '9']
  fraction := ['5']
  zone := 'z'

theorem read_and_written_of_leapDay :
    leapDay.IsCanonical ∧ 0 ≤ leapDay.instant.nanos ∧ leapDay.instant.Fits ∧
      parse "2000-02-29T23:59:59.5z" = .ok ⟨951868799500000000⟩ ∧
      render ⟨951868799500000000⟩ = "2000-02-29T23:59:59.500Z" := by
  have digits : ∀ {digits : List Char}, digits.all Char.isDigit → ∀ c ∈ digits, c.isDigit :=
    List.all_eq_true.mp
  have canonical : leapDay.IsCanonical :=
    ⟨⟨rfl, digits rfl⟩, ⟨rfl, digits rfl⟩, ⟨rfl, digits rfl⟩, ⟨rfl, digits rfl⟩,
      ⟨rfl, digits rfl⟩, ⟨rfl, digits rfl⟩, digits rfl, .inr rfl, by decide, by decide, by decide,
      by decide⟩
  have instant : leapDay.instant = ⟨951868799500000000⟩ := by decide +kernel
  have since : 0 ≤ leapDay.instant.nanos := by
    rw [instant]
    decide
  have fits : leapDay.instant.Fits := by
    rw [instant, fits_iff]
    decide
  have both := read_and_written canonical since fits
  rw [instant] at both
  exact ⟨canonical, since, fits, both⟩

end Stamp

end AgentKit
