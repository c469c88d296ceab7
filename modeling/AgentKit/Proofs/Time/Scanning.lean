/-
# Scanning timestamps

The reader of timestamps is lenient inside a date and time, but where each number
is written in exactly its number of digits there is nothing to be lenient about:
it reads the numbers that are written, and leaves what follows them. Whatever is
read, lenient or not, is a number of whole milliseconds, and no number in it has
more digits than its width.
-/

import AgentKit.Time.Timestamp

namespace AgentKit

/-! ## Numerals -/

namespace Text

/-- Decimal digits, so many of them. -/
def IsNumeral (width : Nat) (digits : List Char) : Prop :=
  digits.length = width ∧ ∀ c ∈ digits, c.isDigit

theorem isNumeral_fixedDigits (width n : Nat) : IsNumeral width (fixedDigits width n) :=
  ⟨length_fixedDigits width n, fun _ => isDigit_of_mem_fixedDigits⟩

theorem not_isBlank_of_isDigit {c : Char} (digit : c.isDigit) : ¬ isBlank c := by
  have range := toNat_of_isDigit digit
  intro blank
  simp only [isBlank, Bool.or_eq_true, Bool.and_eq_true, decide_eq_true_eq] at blank
  rcases blank with rfl | ⟨_, high⟩
  · exact absurd range.1 (by decide)
  · have := UInt32.le_iff_toNat_le.mp high
    exact absurd (Nat.le_trans range.1 this) (by decide)

theorem takeWhile_isDigit_append {digits rest : List Char} (all : ∀ c ∈ digits, c.isDigit)
    (stop : ∀ c ∈ rest.head?, ¬ c.isDigit) :
    (digits ++ rest).takeWhile Char.isDigit = digits := by
  rw [List.takeWhile_append_of_pos all]
  cases rest with
  | nil => simp
  | cons c rest => simp [stop c rfl]

end Text

namespace Instant

open Text

/-- A numeral of the full width is read as its number. -/
theorem scanNumber?_append {width : Nat} {digits : List Char} (numeral : IsNumeral width digits)
    (positive : 0 < width) (rest : List Char) :
    scanNumber? width (digits ++ rest) = some ((natOfDigits digits : Int), rest) := by
  obtain ⟨length, all⟩ := numeral
  cases digits with
  | nil => exact absurd length (Nat.ne_of_lt positive)
  | cons c digits =>
      have first := toNat_of_isDigit (all c List.mem_cons_self)
      have start : (c :: digits ++ rest).dropWhile isBlank = c :: digits ++ rest := by
        simp [not_isBlank_of_isDigit (all c List.mem_cons_self)]
      have inside : ((c :: digits ++ rest).take width).takeWhile Char.isDigit = c :: digits := by
        rw [← length, List.take_left]
        simpa using @takeWhile_isDigit_append (c :: digits) [] all nofun
      have scanned : scanDigits? width (c :: digits ++ rest) =
          some (natOfDigits (c :: digits), rest) := by
        rw [scanDigits?, inside]
        simp
      unfold scanNumber?
      rw [start]
      split
      · next same =>
          cases same
          exact absurd first.1 (by decide)
      · next same =>
          cases same
          exact absurd first.1 (by decide)
      · rw [scanned]
        rfl

/-- A date and time in which every number has its full width, and a text that follows
it. -/
def dateTimeChars (year month day hour minute second rest : List Char) : List Char :=
  year ++ '-' :: (month ++ '-' :: (day ++ 'T' :: (hour ++ ':' :: (minute ++ ':' :: (second ++ rest)))))

/-- The numbers of a date and time in which every number has its full width. -/
theorem scanFields?_dateTimeChars {year month day hour minute second : List Char}
    (yearNumeral : IsNumeral 4 year) (monthNumeral : IsNumeral 2 month)
    (dayNumeral : IsNumeral 2 day) (hourNumeral : IsNumeral 2 hour)
    (minuteNumeral : IsNumeral 2 minute) (secondNumeral : IsNumeral 2 second)
    (rest : List Char) :
    scanFields? (dateTimeChars year month day hour minute second rest) =
      some (⟨natOfDigits year, natOfDigits month, natOfDigits day, natOfDigits hour,
        natOfDigits minute, natOfDigits second⟩, rest) := by
  unfold scanFields? dateTimeChars
  simp only [scanNumber?_append yearNumeral (by decide), scanNumber?_append monthNumeral (by decide),
    scanNumber?_append dayNumeral (by decide), scanNumber?_append hourNumeral (by decide),
    scanNumber?_append minuteNumeral (by decide), scanNumber?_append secondNumeral (by decide),
    Option.bind_eq_bind, Option.bind_some, scanChar?, if_true]
  rfl

/-- After a date and time in nineteen characters and in range, what follows it decides
whether a text is a timestamp. -/
theorem readNanos?_of_scanFields? {cs rest : List Char} {fields : Fields}
    (scanned : scanFields? cs = some (fields, rest)) (consumed : cs.length - rest.length = 19)
    (inRange : fields.inRange) :
    readNanos? cs =
      (scanFraction? rest).bind fun (millis, rest) =>
        if rest = ['Z'] || rest = ['z'] then
          some (fields.seconds * nanosPerSecond + millis * nanosPerMilli)
        else none := by
  simp only [readNanos?, scanned, Option.bind_eq_bind, Option.bind_some, consumed, inRange]
  rfl

/-- A fraction is read to the third digit. -/
theorem scanFraction?_append {digits rest : List Char} (present : digits ≠ [])
    (all : ∀ c ∈ digits, c.isDigit) (stop : ∀ c ∈ rest.head?, ¬ c.isDigit) :
    scanFraction? ('.' :: (digits ++ rest)) =
      some ((natOfDigits ((digits ++ ['0', '0']).take 3) : Int), rest) := by
  simp [scanFraction?, takeWhile_isDigit_append all stop, present]

end Instant

/-! ## Bounds -/

namespace Text

/-- So many digits denote less than the power of ten with so many zeros. -/
theorem natOfDigits_lt {digits : List Char} (all : ∀ c ∈ digits, c.isDigit) :
    natOfDigits digits < Nat.pow 10 digits.length := by
  -- The digits before a place count as one number, the one read so far.
  have general : ∀ front, Nat.ofDigitChars 10 digits front <
      (front + 1) * Nat.pow 10 digits.length := by
    induction digits with
    | nil => simp [Nat.ofDigitChars]
    | cons c digits ih =>
        intro front
        have digit := toNat_of_isDigit (all c List.mem_cons_self)
        have next : 10 * front + (c.toNat - 48) + 1 ≤ (front + 1) * 10 := by omega
        calc Nat.ofDigitChars 10 (c :: digits) front
          _ < (10 * front + (c.toNat - 48) + 1) * Nat.pow 10 digits.length := by
              rw [Nat.ofDigitChars_cons]
              exact ih (fun d member => all d (List.mem_cons_of_mem c member)) _
          _ ≤ (front + 1) * 10 * Nat.pow 10 digits.length := Nat.mul_le_mul_right _ next
          _ = (front + 1) * Nat.pow 10 (c :: digits).length := by
              rw [Nat.mul_assoc, Nat.mul_comm 10]
              rfl
  simpa [natOfDigits] using general 0

theorem isDigit_of_mem_takeWhile {cs : List Char} {c : Char}
    (member : c ∈ cs.takeWhile Char.isDigit) : c.isDigit :=
  List.all_eq_true.mp List.all_takeWhile c member

end Text

namespace Instant

open Text

variable {cs rest : List Char}

theorem scanDigits?_lt {width n : Nat} (scanned : scanDigits? width cs = some (n, rest)) :
    n < Nat.pow 10 width := by
  simp only [scanDigits?, Option.ite_none_left_eq_some, Option.some.injEq, Prod.mk.injEq] at scanned
  obtain ⟨-, rfl, -⟩ := scanned
  have short : ((cs.take width).takeWhile Char.isDigit).length ≤ width :=
    Nat.le_trans (List.takeWhile_sublist _).length_le (List.length_take_le _ _)
  exact Nat.lt_of_lt_of_le (natOfDigits_lt fun _ => isDigit_of_mem_takeWhile)
    (Nat.pow_le_pow_right (by decide) short)

/-- A sign takes the place of a digit. -/
theorem scanNumber?_bounds {width : Nat} {n : Int}
    (scanned : scanNumber? width cs = some (n, rest)) : n.natAbs < Nat.pow 10 width := by
  have narrow : Nat.pow 10 (width - 1) ≤ Nat.pow 10 width :=
    Nat.pow_le_pow_right (by decide) (Nat.sub_le width 1)
  unfold scanNumber? at scanned
  split at scanned
  all_goals
    obtain ⟨⟨digits, rest⟩, found, same⟩ := Option.map_eq_some_iff.mp scanned
    have bound := scanDigits?_lt found
    cases same
    omega

theorem scanFields?_year {fields : Fields} (scanned : scanFields? cs = some (fields, rest)) :
    fields.year.natAbs < 10000 := by
  unfold scanFields? at scanned
  obtain ⟨⟨year, _⟩, found, scanned⟩ := Option.bind_eq_some_iff.mp scanned
  -- The ten steps after the year leave it as it is.
  simp only [Option.bind_eq_bind, Option.bind_eq_some_iff] at scanned
  iterate 10 obtain ⟨_, -, scanned⟩ := scanned
  cases scanned
  exact scanNumber?_bounds found

theorem scanFraction?_bounds {millis : Int} (scanned : scanFraction? cs = some (millis, rest)) :
    0 ≤ millis ∧ millis < 1000 := by
  unfold scanFraction? at scanned
  split at scanned
  · next fraction =>
      simp only [Option.ite_none_left_eq_some, Option.some.injEq, Prod.mk.injEq] at scanned
      obtain ⟨-, rfl, -⟩ := scanned
      have all : ∀ c ∈ (fraction.takeWhile Char.isDigit ++ ['0', '0']).take 3, c.isDigit := by
        intro c member
        rcases List.mem_append.mp (List.mem_of_mem_take member) with digit | zero
        · exact isDigit_of_mem_takeWhile digit
        · simp only [List.mem_cons, List.not_mem_nil, or_false, or_self] at zero
          subst zero
          decide
      have bound := natOfDigits_lt all
      have three : Nat.pow 10 ((fraction.takeWhile Char.isDigit ++ ['0', '0']).take 3).length ≤
          1000 := Nat.pow_le_pow_right (show 0 < 10 by decide) (List.length_take_le 3 _)
      omega
  · cases scanned
    decide

namespace Fields

variable {fields : Fields}

theorem inRange_iff :
    fields.inRange ↔
      (1 ≤ fields.month ∧ fields.month ≤ 12) ∧ (1 ≤ fields.day ∧ fields.day ≤ 31) ∧
        (0 ≤ fields.hour ∧ fields.hour ≤ 23) ∧ (0 ≤ fields.minute ∧ fields.minute ≤ 59) ∧
        0 ≤ fields.second ∧ fields.second ≤ 60 := by
  simp [inRange, and_assoc]

/-- A date and time in a year of at most four digits lies within thirteen thousand
years of the epoch. -/
theorem seconds_bounds (inRange : fields.inRange) (year : fields.year.natAbs < 10000) :
    fields.seconds.natAbs < 400000000000 := by
  obtain ⟨month, day, hour, minute, second⟩ := inRange_iff.mp inRange
  have marchYear : -10000 ≤ CivilDate.marchYear ⟨fields.year, fields.month, fields.day⟩ ∧
      CivilDate.marchYear ⟨fields.year, fields.month, fields.day⟩ ≤ 9999 := by
    unfold CivilDate.marchYear
    split <;> (dsimp only; omega)
  have marchMonth : 0 ≤ CivilDate.marchMonth ⟨fields.year, fields.month, fields.day⟩ ∧
      CivilDate.marchMonth ⟨fields.year, fields.month, fields.day⟩ ≤ 11 := by
    unfold CivilDate.marchMonth
    split <;> (dsimp only at *; omega)
  simp only [Fields.seconds, secondsPerDay, CivilDate.dayNumber, CivilDate.daysBeforeYear,
    CivilDate.daysBeforeMonth, CivilDate.daysPerEra, CivilDate.epochOffset]
  omega

end Fields

/-- What is read is a number of whole milliseconds, however far it is from the epoch. -/
theorem readNanos?_bounds {nanos : Int} (read : readNanos? cs = some nanos) :
    nanosPerMilli ∣ nanos ∧ nanos.natAbs < 1000000000000000000000 := by
  obtain ⟨⟨fields, rest⟩, scanned, read⟩ := Option.bind_eq_some_iff.mp read
  simp only [Option.ite_none_left_eq_some, Bool.or_eq_true, not_or] at read
  obtain ⟨⟨-, inRange⟩, read⟩ := read
  obtain ⟨⟨millis, rest⟩, fraction, read⟩ := Option.bind_eq_some_iff.mp read
  obtain ⟨-, same⟩ := Option.ite_none_right_eq_some.mp read
  have seconds := Fields.seconds_bounds (by simpa using inRange) (scanFields?_year scanned)
  have spare := scanFraction?_bounds fraction
  cases same
  simp only [nanosPerSecond, nanosPerMilli]
  omega

end Instant

end AgentKit
