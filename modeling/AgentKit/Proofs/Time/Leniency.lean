/-
# Lenient timestamps

A strict timestamp has every number of its date and time in its full width, a date that is
in the calendar, and a time that is on the clock, with a sixtieth second for leap seconds.
The reader accepts all of these, and others besides: it only checks that the date and time
take nineteen characters in all, so that a number may give up digits for blanks before it
or for a sign, or leave them to blanks elsewhere, and that the day is none after the
thirty-first, whatever the month.

Which texts it accepts is told by the parts they fall into, and they do so in one way only.
Nothing beyond ASCII is a digit, a blank or a sign, so it makes no difference whether it comes
as bytes or as characters.
-/

import AgentKit.Proofs.Time.Canonical

namespace AgentKit

open Text

/-! ## Loose numerals -/

/-- A sign or none, and the factor it stands for. -/
inductive IsSign : List Char → Int → Prop
  | absent : IsSign [] 1
  | plus : IsSign ['+'] 1
  | minus : IsSign ['-'] (-1)

/-- A number with blanks before it, which its width does not count, and a sign, which it
does. -/
inductive IsLooseNumeral (width : Nat) : List Char → Int → Prop
  | mk {blanks sign digits : List Char} {factor : Int} (blank : ∀ c ∈ blanks, isBlank c)
      (signed : IsSign sign factor) (present : digits ≠ []) (all : ∀ c ∈ digits, c.isDigit)
      (short : sign.length + digits.length ≤ width) :
      IsLooseNumeral width (blanks ++ (sign ++ digits)) (factor * natOfDigits digits)

theorem Text.IsNumeral.isLooseNumeral {width : Nat} {digits : List Char}
    (numeral : IsNumeral width digits) (positive : 0 < width) :
    IsLooseNumeral width digits (natOfDigits digits) := by
  have present : digits ≠ [] := by
    rintro rfl
    exact absurd numeral.1 (Nat.ne_of_lt positive)
  have short : ([] : List Char).length + digits.length ≤ width := by
    rw [List.length_nil, Nat.zero_add, numeral.1]
  simpa using IsLooseNumeral.mk (List.forall_mem_nil _) .absent present numeral.2 short

namespace IsLooseNumeral

variable {width : Nat} {part : List Char} {n : Int}

/-- Where there are digits only, they are the number. -/
theorem eq_of_isDigit (loose : IsLooseNumeral width part n) (all : ∀ c ∈ part, c.isDigit) :
    part.length ≤ width ∧ n = natOfDigits part := by
  cases loose with
  | @mk blanks sign digits factor blank signed _ _ short =>
      cases blanks with
      | cons c blanks =>
          exact absurd (blank c List.mem_cons_self) (not_isBlank_of_isDigit (all c (by simp)))
      | nil =>
          cases signed with
          | absent => simpa using short
          | plus => exact absurd (all '+' (by simp)) (by decide)
          | minus => exact absurd (all '-' (by simp)) (by decide)

end IsLooseNumeral

namespace Instant

variable {width : Nat} {cs part rest : List Char} {n : Int}

theorem exists_digits_of_scanDigits? {value : Nat}
    (scanned : scanDigits? width cs = some (value, rest)) :
    ∃ digits, cs = digits ++ rest ∧ digits ≠ [] ∧ (∀ c ∈ digits, c.isDigit) ∧
      digits.length ≤ width ∧ value = natOfDigits digits := by
  simp only [scanDigits?, Option.ite_none_left_eq_some, Option.some.injEq, Prod.mk.injEq,
    List.isEmpty_iff] at scanned
  obtain ⟨present, rfl, rfl⟩ := scanned
  refine ⟨_, ?_, present, fun _ => isDigit_of_mem_takeWhile, ?_, rfl⟩
  · have inner : (cs.take width).takeWhile Char.isDigit <+: cs.take width :=
      List.takeWhile_prefix Char.isDigit
    have front : (cs.take width).takeWhile Char.isDigit <+: cs :=
      inner.trans <| List.take_prefix width cs
    exact (List.prefix_iff_eq_append.mp front).symm
  · exact Nat.le_trans (List.takeWhile_sublist _).length_le (List.length_take_le _ _)

theorem scanDigits?_append {digits : List Char} (present : digits ≠ [])
    (all : ∀ c ∈ digits, c.isDigit) (short : digits.length ≤ width)
    (stop : ∀ c ∈ rest.head?, ¬ c.isDigit) :
    scanDigits? width (digits ++ rest) = some (natOfDigits digits, rest) := by
  have inside : ((digits ++ rest).take width).takeWhile Char.isDigit = digits := by
    rw [List.take_append, List.take_of_length_le short]
    refine takeWhile_isDigit_append all fun c first => stop c ?_
    rw [List.head?_take] at first
    exact (Option.mem_ite_none_left.mp first).2
  rw [scanDigits?, inside]
  simp [present]

/-- After its blanks and its sign, a number is scanned as digits. -/
theorem scanNumber?_of_sign {sign after : List Char} {factor : Int} (signed : IsSign sign factor)
    (start : cs.dropWhile isBlank = sign ++ after) (digit : ∀ c ∈ after.head?, c.isDigit) :
    scanNumber? width cs =
      (scanDigits? (width - sign.length) after).map fun (value, rest) => (factor * value, rest) := by
  unfold scanNumber?
  rw [start]
  cases signed with
  | absent =>
      split
      · next rest same =>
          cases same
          exact absurd (digit '-' rfl) (by decide)
      · next rest same =>
          cases same
          exact absurd (digit '+' rfl) (by decide)
      · simp
  | plus => simp
  | minus => simp

/-- What is scanned as a number is a loose numeral. -/
theorem exists_part_of_scanNumber? (scanned : scanNumber? width cs = some (n, rest)) :
    ∃ part, cs = part ++ rest ∧ IsLooseNumeral width part n := by
  have blank : ∀ c ∈ cs.takeWhile isBlank, isBlank c := fun c inside =>
    List.all_eq_true.mp List.all_takeWhile c inside
  have split : cs.takeWhile isBlank ++ cs.dropWhile isBlank = cs := List.takeWhile_append_dropWhile
  obtain ⟨sign, factor, after, signed, start, value, found, equal⟩ :
      ∃ sign factor after, IsSign sign factor ∧ cs.dropWhile isBlank = sign ++ after ∧
        ∃ value, scanDigits? (width - sign.length) after = some (value, rest) ∧
          n = factor * value := by
    unfold scanNumber? at scanned
    split at scanned
    all_goals obtain ⟨⟨value, _⟩, found, same⟩ := Option.map_eq_some_iff.mp scanned
    all_goals cases same
    · next after start => exact ⟨_, _, after, .minus, start, value, found, by omega⟩
    · next after start => exact ⟨_, _, after, .plus, start, value, found, by omega⟩
    · exact ⟨_, _, _, .absent, rfl, value, found, by omega⟩
  obtain ⟨digits, rfl, present, all, short, rfl⟩ := exists_digits_of_scanDigits? found
  refine ⟨cs.takeWhile isBlank ++ (sign ++ digits), ?_, ?_⟩
  · rw [List.append_assoc, List.append_assoc, ← start, split]
  · have some := List.length_pos_iff.mpr present
    rw [equal]
    exact .mk blank signed present all (by omega)

/-- A loose numeral is scanned as a number, up to what is no digit. -/
theorem scanNumber?_part (loose : IsLooseNumeral width part n)
    (stop : ∀ c ∈ rest.head?, ¬ c.isDigit) : scanNumber? width (part ++ rest) = some (n, rest) := by
  cases loose with
  | @mk blanks sign digits factor blank signed present all short =>
      obtain ⟨first, others, rfl⟩ := List.exists_cons_of_ne_nil present
      have start : (blanks ++ (sign ++ first :: others) ++ rest).dropWhile isBlank =
          sign ++ (first :: others ++ rest) := by
        rw [List.append_assoc, List.append_assoc, List.dropWhile_append_of_pos blank]
        cases signed with
        | absent => simp [not_isBlank_of_isDigit (all first List.mem_cons_self)]
        | plus => rfl
        | minus => rfl
      have digit : ∀ c ∈ (first :: others ++ rest).head?, c.isDigit := by
        rintro c ⟨⟩
        exact all first List.mem_cons_self
      rw [scanNumber?_of_sign signed start digit, scanDigits?_append present all (by omega) stop]
      rfl

/-- A number ends at a separator. -/
theorem not_isDigit_of_mem_head?_cons {separator : Char} (other : ¬ separator.isDigit)
    (rest : List Char) : ∀ c ∈ (separator :: rest).head?, ¬ c.isDigit := by
  simpa using other

/-- The parts of a number and what follows it are found again. -/
theorem part_append_inj {other rest' : List Char} {m : Int} (loose : IsLooseNumeral width part n)
    (again : IsLooseNumeral width other m) (stop : ∀ c ∈ rest.head?, ¬ c.isDigit)
    (stop' : ∀ c ∈ rest'.head?, ¬ c.isDigit) (same : part ++ rest = other ++ rest') :
    part = other ∧ n = m ∧ rest = rest' := by
  have scanned := scanNumber?_part loose stop
  rw [same, scanNumber?_part again stop', Option.some.injEq, Prod.mk.injEq] at scanned
  obtain ⟨rfl, rfl⟩ := scanned
  exact ⟨List.append_cancel_right same, rfl, rfl⟩

theorem scanChar?_eq_some_iff {expected : Char} :
    scanChar? expected cs = some rest ↔ cs = expected :: rest := by
  cases cs with
  | nil => simp [scanChar?]
  | cons c cs => simp [scanChar?]

end Instant

namespace Stamp

open Instant

/-! ## Loose stamps -/

/-- The parts of the date and time are loose numerals for the given numbers. -/
structure HasFields (stamp : Stamp) (fields : Fields) : Prop where
  year : IsLooseNumeral 4 stamp.year fields.year
  month : IsLooseNumeral 2 stamp.month fields.month
  day : IsLooseNumeral 2 stamp.day fields.day
  hour : IsLooseNumeral 2 stamp.hour fields.hour
  minute : IsLooseNumeral 2 stamp.minute fields.minute
  second : IsLooseNumeral 2 stamp.second fields.second

/-- What the reader accepts: loose numerals in nineteen characters in all, in range whatever the
month. -/
structure IsLoose (stamp : Stamp) (fields : Fields) : Prop extends stamp.HasFields fields where
  length : (stamp.dateTime []).length = 19
  inRange : fields.inRange
  fraction : ∀ c ∈ stamp.fraction, c.isDigit
  zone : stamp.zone = 'Z' ∨ stamp.zone = 'z'

variable {stamp other : Stamp} {fields fields' : Fields} {cs rest : List Char}

/-- What is scanned as a date and time has loose numerals for its parts. -/
theorem exists_stamp_of_scanFields? (scanned : scanFields? cs = some (fields, rest))
    (fraction : List Char) (zone : Char) :
    ∃ stamp : Stamp, stamp.HasFields fields ∧ cs = stamp.dateTime rest ∧
      stamp.fraction = fraction ∧ stamp.zone = zone := by
  unfold scanFields? at scanned
  simp only [Option.bind_eq_bind, Option.bind_eq_some_iff, scanChar?_eq_some_iff] at scanned
  obtain ⟨⟨year, _⟩, yearScanned, _, rfl, ⟨month, _⟩, monthScanned, _, rfl, ⟨day, _⟩, dayScanned,
    _, rfl, ⟨hour, _⟩, hourScanned, _, rfl, ⟨minute, _⟩, minuteScanned, _, rfl, ⟨second, _⟩,
    secondScanned, same⟩ := scanned
  cases same
  obtain ⟨yearPart, rfl, yearLoose⟩ := exists_part_of_scanNumber? yearScanned
  obtain ⟨monthPart, rfl, monthLoose⟩ := exists_part_of_scanNumber? monthScanned
  obtain ⟨dayPart, rfl, dayLoose⟩ := exists_part_of_scanNumber? dayScanned
  obtain ⟨hourPart, rfl, hourLoose⟩ := exists_part_of_scanNumber? hourScanned
  obtain ⟨minutePart, rfl, minuteLoose⟩ := exists_part_of_scanNumber? minuteScanned
  obtain ⟨secondPart, rfl, secondLoose⟩ := exists_part_of_scanNumber? secondScanned
  exact ⟨⟨yearPart, monthPart, dayPart, hourPart, minutePart, secondPart, fraction, zone⟩,
    ⟨yearLoose, monthLoose, dayLoose, hourLoose, minuteLoose, secondLoose⟩, rfl, rfl, rfl⟩

/-- Loose numerals are scanned as the numbers of the date and time. -/
theorem HasFields.scanFields?_dateTime (has : stamp.HasFields fields)
    (stop : ∀ c ∈ rest.head?, ¬ c.isDigit) :
    scanFields? (stamp.dateTime rest) = some (fields, rest) := by
  have dash := @not_isDigit_of_mem_head?_cons '-' (by decide)
  have letter := @not_isDigit_of_mem_head?_cons 'T' (by decide)
  have colon := @not_isDigit_of_mem_head?_cons ':' (by decide)
  unfold scanFields? dateTime dateTimeChars
  simp only [scanNumber?_part has.year (dash _), scanNumber?_part has.month (dash _),
    scanNumber?_part has.day (letter _), scanNumber?_part has.hour (colon _),
    scanNumber?_part has.minute (colon _), scanNumber?_part has.second stop,
    Option.bind_eq_bind, Option.bind_some, scanChar?, if_true]
  rfl

theorem fractionChars_inj (same : stamp.fractionChars = other.fractionChars) :
    stamp.fraction = other.fraction := by
  unfold fractionChars at same
  split at same
  · next none =>
      split at same
      · next none' => rw [none, none']
      · cases same
  · split at same
    · cases same
    · exact (List.cons.inj same).2

/-- The fraction or the zone mark, whichever comes first after the date and time, is no digit. -/
theorem not_isDigit_of_mem_head? (zone : stamp.zone = 'Z' ∨ stamp.zone = 'z') :
    ∀ c ∈ (stamp.fractionChars ++ [stamp.zone]).head?, ¬ c.isDigit := by
  unfold fractionChars
  split
  · rcases zone with mark | mark <;> simp [mark]
  · simp

/-- A text falls into loose parts in one way only. -/
theorem IsLoose.text_inj (loose : stamp.IsLoose fields) (again : other.IsLoose fields')
    (same : stamp.text = other.text) : stamp = other ∧ fields = fields' := by
  have chars := String.ofList_injective same
  have dash := @not_isDigit_of_mem_head?_cons '-' (by decide)
  have letter := @not_isDigit_of_mem_head?_cons 'T' (by decide)
  have colon := @not_isDigit_of_mem_head?_cons ':' (by decide)
  obtain ⟨year, yearValue, chars⟩ := part_append_inj loose.year again.year (dash _) (dash _) chars
  obtain ⟨month, monthValue, chars⟩ :=
    part_append_inj loose.month again.month (dash _) (dash _) (List.cons.inj chars).2
  obtain ⟨day, dayValue, chars⟩ :=
    part_append_inj loose.day again.day (letter _) (letter _) (List.cons.inj chars).2
  obtain ⟨hour, hourValue, chars⟩ :=
    part_append_inj loose.hour again.hour (colon _) (colon _) (List.cons.inj chars).2
  obtain ⟨minute, minuteValue, chars⟩ :=
    part_append_inj loose.minute again.minute (colon _) (colon _) (List.cons.inj chars).2
  obtain ⟨second, secondValue, chars⟩ :=
    part_append_inj loose.second again.second (not_isDigit_of_mem_head? loose.zone)
      (not_isDigit_of_mem_head? again.zone) (List.cons.inj chars).2
  obtain ⟨fraction, zone⟩ := List.append_inj' chars rfl
  have fraction := fractionChars_inj fraction
  have zone := (List.cons.inj zone).1
  clear loose again same chars
  obtain ⟨_, _, _, _, _, _, _, _⟩ := stamp
  obtain ⟨_, _, _, _, _, _, _, _⟩ := other
  obtain ⟨_, _, _, _, _, _⟩ := fields
  obtain ⟨_, _, _, _, _, _⟩ := fields'
  simp_all

/-! ## What the reader accepts -/

theorem exists_fraction_of_scanFraction? {millis : Int}
    (scanned : scanFraction? cs = some (millis, rest)) :
    ∃ fraction : List Char, (∀ c ∈ fraction, c.isDigit) ∧
      cs = (if fraction = [] then [] else '.' :: fraction) ++ rest := by
  unfold scanFraction? at scanned
  split at scanned
  · next after =>
      simp only [Option.ite_none_left_eq_some, Option.some.injEq, Prod.mk.injEq,
        List.isEmpty_iff] at scanned
      obtain ⟨present, -, rfl⟩ := scanned
      refine ⟨after.takeWhile Char.isDigit, fun _ => isDigit_of_mem_takeWhile, ?_⟩
      have front : after.takeWhile Char.isDigit <+: after := List.takeWhile_prefix Char.isDigit
      rw [if_neg present, List.cons_append, List.cons.injEq]
      exact ⟨rfl, (List.prefix_iff_eq_append.mp front).symm⟩
  · cases scanned
    exact ⟨[], List.forall_mem_nil _, rfl⟩

theorem length_dateTime_sub (stamp : Stamp) (rest : List Char) :
    (stamp.dateTime rest).length - rest.length = (stamp.dateTime []).length := by
  simp only [dateTime, dateTimeChars, List.length_append, List.length_cons, List.length_nil]
  omega

/-- A loose stamp is read, whatever it denotes. -/
theorem IsLoose.exists_nanos (loose : stamp.IsLoose fields) :
    ∃ nanos, readNanos? stamp.text.toList = some nanos := by
  have scanned := loose.scanFields?_dateTime (not_isDigit_of_mem_head? loose.zone)
  have consumed := (stamp.length_dateTime_sub (stamp.fractionChars ++ [stamp.zone])).trans loose.length
  have mark : [stamp.zone] = ['Z'] ∨ [stamp.zone] = ['z'] := by
    simpa using loose.zone
  rw [text, String.toList_ofList, readNanos?_of_scanFields? scanned consumed loose.inRange,
    scanFraction?_fractionChars loose.fraction loose.zone, Option.bind_some]
  dsimp only
  rw [if_pos (by simpa using mark)]
  exact ⟨_, rfl⟩

/-- What is read is a loose stamp. -/
theorem exists_isLoose_of_readNanos? {nanos : Int} (read : readNanos? cs = some nanos) :
    ∃ (stamp : Stamp) (fields : Fields), stamp.IsLoose fields ∧ stamp.text = String.ofList cs := by
  obtain ⟨⟨fields, after⟩, scanned, read⟩ := Option.bind_eq_some_iff.mp read
  simp only [Option.ite_none_left_eq_some, Bool.or_eq_true, not_or] at read
  obtain ⟨⟨consumed, inRange⟩, read⟩ := read
  obtain ⟨⟨millis, last⟩, scannedFraction, read⟩ := Option.bind_eq_some_iff.mp read
  obtain ⟨mark, -⟩ := Option.ite_none_right_eq_some.mp read
  obtain ⟨zone, rfl, isZone⟩ : ∃ zone : Char, last = [zone] ∧ (zone = 'Z' ∨ zone = 'z') := by
    simp only [decide_eq_true_eq] at mark
    rcases mark with mark | mark
    · exact ⟨'Z', mark, .inl rfl⟩
    · exact ⟨'z', mark, .inr rfl⟩
  obtain ⟨fraction, digits, rfl⟩ := exists_fraction_of_scanFraction? scannedFraction
  obtain ⟨stamp, has, rfl, rfl, rfl⟩ := exists_stamp_of_scanFields? scanned fraction zone
  have length : (stamp.dateTime []).length = 19 := by
    rw [stamp.length_dateTime_sub] at consumed
    simpa using consumed
  exact ⟨stamp, fields, ⟨has, length, by simpa using inRange, digits, isZone⟩, rfl⟩

/-! ## Strict stamps -/

/-- The parts of the date and time. -/
def parts (stamp : Stamp) : List (List Char) :=
  [stamp.year, stamp.month, stamp.day, stamp.hour, stamp.minute, stamp.second]

/-- The parts of the date and time have digits only, without blanks and signs. -/
def IsPlain (stamp : Stamp) : Prop :=
  ∀ part ∈ stamp.parts, ∀ c ∈ part, c.isDigit

theorem IsStrict.isPlain (strict : stamp.IsStrict) : stamp.IsPlain := by
  simp only [IsPlain, parts, List.forall_mem_cons]
  exact ⟨strict.year.2, strict.month.2, strict.day.2, strict.hour.2, strict.minute.2,
    strict.second.2, List.forall_mem_nil _⟩

theorem IsStrict.isLoose (strict : stamp.IsStrict) : stamp.IsLoose stamp.fields where
  year := strict.year.isLooseNumeral (by decide)
  month := strict.month.isLooseNumeral (by decide)
  day := strict.day.isLooseNumeral (by decide)
  hour := strict.hour.isLooseNumeral (by decide)
  minute := strict.minute.isLooseNumeral (by decide)
  second := strict.second.isLooseNumeral (by decide)
  length := strict.length_dateTime []
  inRange := strict.inRange
  fraction := strict.fraction
  zone := strict.zone

/-- Without blanks and signs, and with a date in the calendar, a loose stamp is strict: no part
can be longer than its width, so that none is shorter either. -/
theorem IsLoose.isStrict (loose : stamp.IsLoose fields) (plain : stamp.IsPlain)
    (date : CivilDate.Exists ⟨fields.year, fields.month, fields.day⟩) : stamp.IsStrict := by
  simp only [IsPlain, parts, List.forall_mem_cons] at plain
  obtain ⟨year, month, day, hour, minute, second, -⟩ := plain
  obtain ⟨yearShort, yearValue⟩ := loose.year.eq_of_isDigit year
  obtain ⟨monthShort, monthValue⟩ := loose.month.eq_of_isDigit month
  obtain ⟨dayShort, dayValue⟩ := loose.day.eq_of_isDigit day
  obtain ⟨hourShort, hourValue⟩ := loose.hour.eq_of_isDigit hour
  obtain ⟨minuteShort, minuteValue⟩ := loose.minute.eq_of_isDigit minute
  obtain ⟨secondShort, secondValue⟩ := loose.second.eq_of_isDigit second
  obtain ⟨-, -, ⟨-, hourHigh⟩, ⟨-, minuteHigh⟩, -, secondHigh⟩ := Fields.inRange_iff.mp loose.inRange
  have total := loose.length
  simp only [dateTime, dateTimeChars, List.length_append, List.length_cons, List.length_nil] at total
  rw [yearValue, monthValue, dayValue] at date
  rw [hourValue] at hourHigh
  rw [minuteValue] at minuteHigh
  rw [secondValue] at secondHigh
  exact ⟨⟨by omega, year⟩, ⟨by omega, month⟩, ⟨by omega, day⟩, ⟨by omega, hour⟩,
    ⟨by omega, minute⟩, ⟨by omega, second⟩, loose.fraction, loose.zone, date, hourHigh, minuteHigh,
    secondHigh⟩

/-- The text of a strict stamp. -/
def IsStrictText (text : String) : Prop :=
  ∃ stamp : Stamp, stamp.IsStrict ∧ stamp.text = text

/-- The text of a loose stamp with a blank or a sign in one of its numbers, or with a date that is
not in the calendar. -/
def IsLaxText (text : String) : Prop :=
  ∃ (stamp : Stamp) (fields : Fields), stamp.IsLoose fields ∧
    (¬ stamp.IsPlain ∨ ¬ CivilDate.Exists ⟨fields.year, fields.month, fields.day⟩) ∧
    stamp.text = text

/-- No text is both. -/
theorem not_isStrictText_of_isLaxText {text : String} (lax : IsLaxText text) :
    ¬ IsStrictText text := by
  rintro ⟨strict, isStrict, rfl⟩
  obtain ⟨stamp, fields, loose, slack, same⟩ := lax
  obtain ⟨rfl, rfl⟩ := loose.text_inj isStrict.isLoose same
  exact slack.elim (absurd isStrict.isPlain) (absurd isStrict.date)

theorem exists_time_iff (text : String) :
    (∃ time, parse text = .ok time) ↔ IsStrictText text ∨ IsLaxText text := by
  constructor
  · rintro ⟨time, accepted⟩
    obtain ⟨nanos, read, -⟩ := parse_eq_ok_iff.mp accepted
    obtain ⟨stamp, fields, loose, same⟩ := exists_isLoose_of_readNanos? read
    rw [String.ofList_toList] at same
    by_cases plain : stamp.IsPlain ∧ CivilDate.Exists ⟨fields.year, fields.month, fields.day⟩
    · exact .inl ⟨stamp, loose.isStrict plain.1 plain.2, same⟩
    · exact .inr ⟨stamp, fields, loose, Classical.not_and_iff_not_or_not.mp plain, same⟩
  · intro either
    obtain ⟨stamp, fields, loose, rfl⟩ :
        ∃ (stamp : Stamp) (fields : Fields), stamp.IsLoose fields ∧ stamp.text = text := by
      rcases either with ⟨stamp, strict, same⟩ | ⟨stamp, fields, loose, -, same⟩
      · exact ⟨stamp, stamp.fields, strict.isLoose, same⟩
      · exact ⟨stamp, fields, loose, same⟩
    obtain ⟨nanos, read⟩ := loose.exists_nanos
    exact ⟨_, parse_eq_ok_iff.mpr ⟨nanos, read, rfl⟩⟩

/-- The reader accepts the texts of strict stamps and the lax ones, and it rejects all others for
their form. So it accepts exactly what is strict but for the lax texts, whatever the year. -/
theorem accepted_iff_strict_or_lax (text : String) :
    ((∃ time, parse text = .ok time) ↔ IsStrictText text ∨ IsLaxText text) ∧
      (((∃ time, parse text = .ok time) ↔ IsStrictText text) ↔ ¬ IsLaxText text) ∧
      ((¬ ∃ time, parse text = .ok time) →
        ∃ error, parse text = .error error ∧ error.code = .validationFormat) := by
  refine ⟨exists_time_iff text, ?_, ?_⟩
  · rw [exists_time_iff]
    constructor
    · intro same lax
      exact not_isStrictText_of_isLaxText lax (same.mp (.inr lax))
    · exact or_iff_left
  · intro rejected
    unfold parse at *
    cases read : readChars? text.toList with
    | some time => exact absurd ⟨time, by rw [read]⟩ rejected
    | none => exact ⟨_, rfl, rfl⟩

/-- The thirtieth of February. -/
def overfullMonth : Stamp where
  year := ['2', '0', '2', '3']
  month := ['0', '2']
  day := ['3', '0']
  hour := ['1', '2']
  minute := ['0', '0']
  second := ['0', '0']
  fraction := []
  zone := 'Z'

theorem isLoose_overfullMonth : overfullMonth.IsLoose ⟨2023, 2, 30, 12, 0, 0⟩ := by
  have numeral : ∀ {width : Nat} {part : List Char}, part.length = width → 0 < width →
      part.all Char.isDigit → IsLooseNumeral width part (natOfDigits part) :=
    fun length positive all =>
      Text.IsNumeral.isLooseNumeral ⟨length, List.all_eq_true.mp all⟩ positive
  exact ⟨⟨numeral rfl (by decide) rfl, numeral rfl (by decide) rfl, numeral rfl (by decide) rfl,
    numeral rfl (by decide) rfl, numeral rfl (by decide) rfl, numeral rfl (by decide) rfl⟩,
    rfl, by decide, nofun, .inl rfl⟩

/-- The first of February, with a sign and a blank in place of zeros. -/
def blankAndSign : Stamp :=
  { overfullMonth with month := ['+', '2'], day := [' ', '1'] }

theorem isLoose_blankAndSign : blankAndSign.IsLoose ⟨2023, 2, 1, 12, 0, 0⟩ := by
  have plus : IsLooseNumeral 2 ['+', '2'] 2 :=
    @IsLooseNumeral.mk 2 [] ['+'] ['2'] 1 nofun .plus (List.cons_ne_nil _ _)
      (List.all_eq_true.mp rfl) (by decide)
  have blank : IsLooseNumeral 2 [' ', '1'] 1 :=
    @IsLooseNumeral.mk 2 [' '] [] ['1'] 1 (List.all_eq_true.mp rfl) .absent (List.cons_ne_nil _ _)
      (List.all_eq_true.mp rfl) (by decide)
  obtain ⟨has, -, -, -, -⟩ := isLoose_overfullMonth
  exact ⟨⟨has.year, plus, blank, has.hour, has.minute, has.second⟩, rfl, by decide, nofun, .inl rfl⟩

/-- Both are accepted: one as the second of March, the other as if it had zeros. -/
theorem lax_texts_are_accepted :
    parse "2023-02-30T12:00:00Z" = .ok ⟨1677758400000000000⟩ ∧
      ¬ IsStrictText "2023-02-30T12:00:00Z" ∧
      parse "2023-+2- 1T12:00:00Z" = .ok ⟨1675252800000000000⟩ ∧
      ¬ IsStrictText "2023-+2- 1T12:00:00Z" := by
  have notInCalendar : ¬ CivilDate.Exists ⟨2023, 2, 30⟩ := by decide
  have notPlain : ¬ blankAndSign.IsPlain := fun plain =>
    absurd (plain ['+', '2'] (by decide) '+' (by decide)) (by decide)
  refine ⟨?_, ?_, ?_, ?_⟩
  · exact parse_eq_ok_iff.mpr
      ⟨1677758400000000000, by decide +kernel, congrArg Instant.mk (by decide +kernel)⟩
  · exact not_isStrictText_of_isLaxText ⟨_, _, isLoose_overfullMonth, .inr notInCalendar, rfl⟩
  · exact parse_eq_ok_iff.mpr
      ⟨1675252800000000000, by decide +kernel, congrArg Instant.mk (by decide +kernel)⟩
  · exact not_isStrictText_of_isLaxText ⟨_, _, isLoose_blankAndSign, .inl notPlain, rfl⟩

end Stamp

end AgentKit
