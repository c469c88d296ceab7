/-
# Reading durations

The reader of durations takes the texts of its grammar and no others: plain integers of
milliseconds that fit in 64 bits, and segments whose amounts do. What it makes of them is
what they denote, as long as that and all that is counted on the way fit in 64 bits.
Amounts are never negative, so it is the total that decides.

A total that does not fit is not noticed unless one of the amounts, taken without its
unit, does not fit either. The text is then read as another duration.
-/

import AgentKit.Proofs.Settings.Failures
import AgentKit.Proofs.Time.Segments

namespace AgentKit.Duration

open IntFormat

/-! ## What a text denotes -/

/-- The milliseconds that a text denotes, exactly. -/
inductive Denotes : List Char → Int → Prop
  | plain {cs : List Char} {millis : Int} (decimal : IsDecimal true cs millis)
      (held : int64.holds millis) : Denotes cs millis
  | segments {segments : List Segment} (present : segments ≠ [])
      (bounded : ∀ segment ∈ segments, segment.IsBounded) :
      Denotes (Segment.text segments) (Segment.total segments)

/-- Bounded segments and nothing else. -/
def IsUnitForm (text : String) : Prop :=
  ∃ segments, segments ≠ [] ∧ (∀ segment ∈ segments, segment.IsBounded) ∧
    text.toList = Segment.text segments

/-- All that is counted in adding up segments fits in 64 bits. -/
structure Segment.AreInReach (segments : List Segment) : Prop where
  products : ∀ segment ∈ segments, int64.holds segment.millis
  sums : ∀ front, front <+: segments → int64.holds (total front)

/-- All that is counted in reading a text fits in 64 bits. A plain integer is not counted. -/
def InReach (text : String) : Prop :=
  ∀ segments, (∀ segment ∈ segments, segment.IsBounded) → text.toList = Segment.text segments →
    Segment.AreInReach segments

variable {cs : List Char} {text : String} {segments : List Segment} {value n : Int}

namespace Segment

theorem total_front_le {front : List Segment} (before : front <+: segments) :
    total front ≤ total segments := by
  obtain ⟨back, rfl⟩ := before
  have rest := total_nonneg back
  rw [total_append]
  omega

theorem millis_le_total {segment : Segment} (mem : segment ∈ segments) :
    segment.millis ≤ total segments := by
  obtain ⟨front, back, rfl⟩ := List.append_of_mem mem
  have first := total_nonneg front
  have rest := total_nonneg back
  rw [total_append, total_cons]
  omega

/-- If the total fits, then so does all that comes before it. -/
theorem areInReach_iff : AreInReach segments ↔ int64.holds (total segments) := by
  constructor
  · intro reach
    exact reach.sums segments List.prefix_rfl
  · intro held
    have high := (holds_int64_iff.mp held).2
    constructor
    · intro segment mem
      have low := Int.le_trans segment.amount_nonneg segment.amount_le_millis
      have bound := millis_le_total mem
      exact holds_int64_iff.mpr ⟨by omega, by omega⟩
    · intro front before
      have low := total_nonneg front
      have bound := total_front_le before
      exact holds_int64_iff.mpr ⟨by omega, by omega⟩

/-- Segments are no plain integer: they end with a letter. -/
theorem not_isDecimal_text (present : segments ≠ []) :
    ¬ IsDecimal true (Segment.text segments) n := by
  intro decimal
  obtain ⟨segment, rest, rfl⟩ := List.exists_cons_of_ne_nil present
  have first := segment.isDigit_of_mem_head?_chars (Segment.text rest)
  rw [text_cons] at decimal
  generalize same : segment.chars ++ Segment.text rest = cs at decimal first
  cases decimal with
  | plain _ all =>
      obtain ⟨letter, inside⟩ := List.exists_mem_of_ne_nil _ segment.unit.name_ne_nil
      have digit := all letter (by simp [← same, chars, inside])
      exact not_isAlpha_of_isDigit digit (segment.unit.isAlpha_of_mem_name letter inside)
  | minus _ _ _ => exact absurd (first '-' rfl) (by decide)

end Segment

/-! ## What the reader makes of it -/

theorem readChars_of_read? (read : int64.read? cs = some n) : readChars cs = .ok n := by
  have given : ¬ cs.isEmpty := by
    intro none
    rw [List.isEmpty_iff.mp none] at read
    cases read
  rw [readChars, if_neg given, read]

/-- What is no plain integer is taken as segments. -/
theorem readChars_of_none (given : cs ≠ []) (unread : int64.read? cs = none) :
    readChars cs = sumSegments cs.length 0 cs := by
  rw [readChars, if_neg (mt List.isEmpty_iff.mp given), unread]

theorem readChars_text (present : segments ≠ []) (bounded : ∀ segment ∈ segments, segment.IsBounded) :
    readChars (Segment.text segments) = .ok (wrap64 (Segment.total segments)) := by
  have given : Segment.text segments ≠ [] := fun none => present (Segment.text_inj none)
  have unread : int64.read? (Segment.text segments) = none :=
    Option.eq_none_iff_forall_ne_some.mpr fun n read =>
      Segment.not_isDecimal_text present (read?_eq_some_iff.mp read).1
  have zero : int64.holds 0 := by decide
  rw [readChars_of_none given unread, sumSegments_text bounded (Nat.le_refl _) zero, Int.zero_add]

/-- The reader takes plain integers that fit, and bounded segments, whose total wraps around. -/
theorem readChars_eq_ok_iff :
    readChars cs = .ok value ↔
      IsDecimal true cs value ∧ int64.holds value ∨
        ∃ segments, segments ≠ [] ∧ (∀ segment ∈ segments, segment.IsBounded) ∧
          cs = Segment.text segments ∧ value = wrap64 (Segment.total segments) := by
  constructor
  · intro accepted
    cases read : int64.read? cs with
    | some n =>
        rw [readChars_of_read? read] at accepted
        cases accepted
        exact .inl (read?_eq_some_iff.mp read)
    | none =>
        have given : cs ≠ [] := by
          rintro rfl
          cases accepted
        obtain ⟨rounds, -, ends⟩ := exists_endsAfter (Nat.le_refl cs.length) 0
        rw [← readChars_of_none given read, accepted] at ends
        obtain ⟨segments, bounded, rfl⟩ := ends.exists_segments
        have present : segments ≠ [] := by
          rintro rfl
          exact given rfl
        rw [readChars_text present bounded] at accepted
        cases accepted
        exact .inr ⟨segments, present, bounded, rfl, rfl⟩
  · rintro (⟨decimal, held⟩ | ⟨segments, present, bounded, rfl, rfl⟩)
    · exact readChars_of_read? (read?_eq_some_iff.mpr ⟨decimal, held⟩)
    · exact readChars_text present bounded

theorem parse_eq_ok_iff : parse text = .ok value ↔ readChars text.toList = .ok value := by
  unfold parse
  split
  · next read => simp [read]
  · next read => simp [read]
  · next read => simp [read]

theorem isRefused_parse_iff : IsRefused (parse text) ↔ ∀ value, parse text ≠ .ok value := by
  constructor
  · rintro ⟨error, failed, -⟩ value accepted
    cases accepted.symm.trans failed
  · intro none
    cases outcome : parse text with
    | ok value => exact absurd outcome (none value)
    | error error => exact ⟨error, rfl, isMisfit_of_parse outcome⟩

theorem parse_of_text (present : segments ≠ []) (bounded : ∀ segment ∈ segments, segment.IsBounded)
    (same : text.toList = Segment.text segments) :
    parse text = .ok (wrap64 (Segment.total segments)) := by
  rw [parse_eq_ok_iff, same]
  exact readChars_text present bounded

theorem inReach_iff_of_text (bounded : ∀ segment ∈ segments, segment.IsBounded)
    (same : text.toList = Segment.text segments) : InReach text ↔ Segment.AreInReach segments := by
  constructor
  · intro reach
    exact reach segments bounded same
  · intro reach others _ again
    rwa [Segment.text_inj (again.symm.trans same)]

/-- A plain integer has no segments that could be out of reach. -/
theorem inReach_of_isDecimal (decimal : IsDecimal true text.toList n) : InReach text := by
  intro segments _ same
  by_cases present : segments = []
  · rw [present, Segment.areInReach_iff]
    decide
  · rw [same] at decimal
    exact absurd decimal (Segment.not_isDecimal_text present)

theorem denotes_iff_of_inReach (reach : InReach text) :
    parse text = .ok value ↔ Denotes text.toList value := by
  rw [parse_eq_ok_iff, readChars_eq_ok_iff]
  constructor
  · rintro (⟨decimal, held⟩ | ⟨segments, present, bounded, same, rfl⟩)
    · exact .plain decimal held
    · have held := Segment.areInReach_iff.mp (reach segments bounded same)
      rw [wrap64_eq_self held, same]
      exact .segments present bounded
  · generalize same : text.toList = cs
    intro denotes
    cases denotes with
    | plain decimal held => exact .inl ⟨decimal, held⟩
    | @segments segments present bounded =>
        have held := Segment.areInReach_iff.mp (reach segments bounded same)
        exact .inr ⟨segments, present, bounded, rfl, (wrap64_eq_self held).symm⟩

/-! ## The grammar -/

/-- As long as all that is counted fits in 64 bits, a text is read as a duration if and only if it
denotes that duration, by a plain integer or by segments, and refused if it denotes none. Two
texts of segments, one after the other, are read as the sum of what they are read as. Whatever
the text, adding up its segments ends after as many rounds as there are characters, or fewer. -/
theorem parse_eq_ok_iff_denotes {text : String} (reach : InReach text) :
    (∀ millis, parse text = .ok millis ↔ Denotes text.toList millis) ∧
      ((∀ millis, ¬ Denotes text.toList millis) → IsRefused (parse text)) ∧
      (∀ front back, text = front ++ back → IsUnitForm front → IsUnitForm back →
        ∃ first second, parse front = .ok first ∧ parse back = .ok second ∧
          parse text = .ok (first + second)) ∧
      ∀ (cs : List Char) (total : Int), ∃ rounds ≤ cs.length,
        EndsAfter rounds total cs (sumSegments cs.length total cs) := by
  refine ⟨fun _ => denotes_iff_of_inReach reach, ?_, ?_, fun _ => exists_endsAfter (Nat.le_refl _)⟩
  · intro nothing
    exact isRefused_parse_iff.mpr fun millis accepted =>
      nothing millis ((denotes_iff_of_inReach reach).mp accepted)
  · rintro front back rfl ⟨segments, present, bounded, same⟩ ⟨others, given, limited, again⟩
    have whole : (front ++ back).toList = Segment.text (segments ++ others) := by
      rw [String.toList_append, same, again, Segment.text_append]
    have all : ∀ segment ∈ segments ++ others, segment.IsBounded := by
      intro segment mem
      exact (List.mem_append.mp mem).elim (bounded segment) (limited segment)
    have held := Segment.areInReach_iff.mp (reach _ all whole)
    rw [Segment.total_append] at held
    have high := (holds_int64_iff.mp held).2
    have first := Segment.total_nonneg segments
    have second := Segment.total_nonneg others
    refine ⟨Segment.total segments, Segment.total others, ?_, ?_, ?_⟩
    · rw [parse_of_text present bounded same,
        wrap64_eq_self (holds_int64_iff.mpr ⟨by omega, by omega⟩)]
    · rw [parse_of_text given limited again,
        wrap64_eq_self (holds_int64_iff.mpr ⟨by omega, by omega⟩)]
    · rw [parse_of_text (List.append_ne_nil_of_left_ne_nil present others) all whole,
        Segment.total_append, wrap64_eq_self held]

/-- Segments in no order, two of them in the same unit. -/
def shuffledSegments : List Segment :=
  [⟨['3', '0'], .seconds, List.cons_ne_nil _ _, List.all_eq_true.mp rfl⟩,
    ⟨['1'], .hours, List.cons_ne_nil _ _, List.all_eq_true.mp rfl⟩,
    ⟨['2', '5', '0'], .milliseconds, List.cons_ne_nil _ _, List.all_eq_true.mp rfl⟩,
    ⟨['5', '8'], .minutes, List.cons_ne_nil _ _, List.all_eq_true.mp rfl⟩,
    ⟨['1'], .hours, List.cons_ne_nil _ _, List.all_eq_true.mp rfl⟩]

theorem parse_eq_ok_iff_denotes_of_shuffledSegments :
    InReach "30s1h250ms58m1h" ∧ parse "30s1h250ms58m1h" = .ok 10710250 := by
  have bounded : ∀ segment ∈ shuffledSegments, segment.IsBounded := by decide
  have same : "30s1h250ms58m1h".toList = Segment.text shuffledSegments := rfl
  have reach : InReach "30s1h250ms58m1h" :=
    (inReach_iff_of_text bounded same).mpr (Segment.areInReach_iff.mpr (by decide))
  have denotes : Denotes "30s1h250ms58m1h".toList 10710250 :=
    same ▸ .segments (List.cons_ne_nil _ _) bounded
  exact ⟨reach, ((parse_eq_ok_iff_denotes reach).1 _).mpr denotes⟩

/-! ## Exact totals -/

theorem wrap64_eq_self_iff : wrap64 n = n ↔ int64.holds n := by
  constructor
  · intro same
    rw [← same]
    exact holds_wrap64 n
  · exact wrap64_eq_self

theorem exists_denoted_of_parse (accepted : parse text = .ok value) :
    ∃ total, Denotes text.toList total ∧ (value = total ↔ InReach text) ∧
      (InReach text ↔ int64.holds total) := by
  obtain ⟨decimal, held⟩ | ⟨segments, present, bounded, same, rfl⟩ :=
    readChars_eq_ok_iff.mp (parse_eq_ok_iff.mp accepted)
  · have reach := inReach_of_isDecimal decimal
    exact ⟨value, .plain decimal held, iff_of_true rfl reach, iff_of_true reach held⟩
  · refine ⟨Segment.total segments, same ▸ .segments present bounded, ?_, ?_⟩
    · rw [wrap64_eq_self_iff, inReach_iff_of_text bounded same, Segment.areInReach_iff]
    · rw [inReach_iff_of_text bounded same, Segment.areInReach_iff]

theorem isRefused_of_isDecimal (decimal : IsDecimal true text.toList n)
    (large : ¬ int64.holds n) : IsRefused (parse text) := by
  refine isRefused_parse_iff.mpr fun value accepted => ?_
  obtain ⟨again, held⟩ | ⟨segments, present, -, same, -⟩ :=
    readChars_eq_ok_iff.mp (parse_eq_ok_iff.mp accepted)
  · rw [decimal.eq again] at large
    exact large held
  · rw [same] at decimal
    exact Segment.not_isDecimal_text present decimal

/-- Segments are refused only for the amount of one of them. -/
theorem isRefused_iff_of_text (present : segments ≠ [])
    (same : text.toList = Segment.text segments) :
    IsRefused (parse text) ↔ ∃ segment ∈ segments, ¬ segment.IsBounded := by
  rw [isRefused_parse_iff]
  constructor
  · intro refused
    refine Classical.byContradiction fun none => ?_
    have bounded : ∀ segment ∈ segments, segment.IsBounded := fun segment mem =>
      Classical.byContradiction fun large => none ⟨segment, mem, large⟩
    exact refused _ (parse_of_text present bounded same)
  · rintro ⟨segment, mem, large⟩ value accepted
    obtain ⟨decimal, -⟩ | ⟨others, -, bounded, again, -⟩ :=
      readChars_eq_ok_iff.mp (parse_eq_ok_iff.mp accepted)
    · rw [same] at decimal
      exact Segment.not_isDecimal_text present decimal
    · rw [Segment.text_inj (same.symm.trans again)] at mem
      exact large (bounded segment mem)

/-- A text that is accepted denotes a duration, and is read as it if and only if all that is
counted fits in 64 bits, which is so if and only if that duration does. Plain integers that are
too large are refused, but segments only if the amount of one of them, without its unit, is too
large by itself, whatever their total. -/
theorem parse_is_exact_iff (text : String) :
    (∀ value, parse text = .ok value → ∃ total, Denotes text.toList total ∧
        (value = total ↔ InReach text) ∧ (InReach text ↔ int64.holds total)) ∧
      (∀ n, IsDecimal true text.toList n → ¬ int64.holds n → IsRefused (parse text)) ∧
      ∀ segments, segments ≠ [] → text.toList = Segment.text segments →
        (IsRefused (parse text) ↔ ∃ segment ∈ segments, ¬ segment.IsBounded) :=
  ⟨fun _ => exists_denoted_of_parse, fun _ => isRefused_of_isDecimal,
    fun _ => isRefused_iff_of_text⟩

/-- The least number of whole hours that is out of reach. -/
def overlongHours : Segment :=
  ⟨['2', '5', '6', '2', '0', '4', '7', '7', '8', '8', '0', '1', '6'], .hours,
    List.cons_ne_nil _ _, List.all_eq_true.mp rfl⟩

/-- It is accepted, and read as a negative duration. -/
theorem overlong_hours_are_accepted :
    Denotes "2562047788016h".toList 9223372036857600000 ∧ ¬ int64.holds 9223372036857600000 ∧
      parse "2562047788016h" = .ok (-9223372036851951616) := by
  have present : [overlongHours] ≠ [] := List.cons_ne_nil _ _
  have bounded : ∀ segment ∈ [overlongHours], segment.IsBounded := by decide
  have same : "2562047788016h".toList = Segment.text [overlongHours] := rfl
  have denotes : Denotes "2562047788016h".toList 9223372036857600000 :=
    same ▸ .segments present bounded
  have large : ¬ int64.holds 9223372036857600000 := fun held =>
    absurd (holds_int64_iff.mp held).2 (by decide)
  have wrapped : wrap64 (Segment.total [overlongHours]) = -9223372036851951616 := by decide +kernel
  refine ⟨denotes, large, ?_⟩
  rw [parse_of_text present bounded same, wrapped]

end AgentKit.Duration
