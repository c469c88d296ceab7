/-
# The texts of durations

A duration is written as a plain integer of milliseconds, or as segments one after the
other, each an amount in decimal digits with a unit. A segment starts with a digit and
ends with a letter, so a text falls into segments in one way only, and the reader, which
takes as many digits and then as many letters as there are, finds them. Only ASCII has
digits and letters here, so it makes no difference whether what is beyond ASCII comes as
bytes or as characters: it is refused.

An amount has to fit in 64 bits by itself. What it comes to in milliseconds need not, nor
need the sum: then the count wraps around, and the text is read all the same. So the
reader takes exactly the texts of the grammar, and a text is read as what it denotes if
and only if that fits in 64 bits.
-/

import Mathlib.Algebra.Ring.Int.Defs
import Mathlib.Data.List.TakeDrop
import AgentKit.Proofs.Number.Decimal
import AgentKit.Time.Duration

namespace AgentKit.Duration

open IntFormat Text

/-! ## Segments -/

namespace TimeUnit

def name : TimeUnit → List Char
  | milliseconds => ['m', 's']
  | seconds => ['s']
  | minutes => ['m']
  | hours => ['h']

theorem ofName?_eq_some_iff {cs : List Char} {unit : TimeUnit} :
    ofName? cs = some unit ↔ cs = unit.name := by
  constructor
  · intro found
    simp only [ofName?] at found
    split at found
    · next same => cases found; exact same
    · split at found
      · next same => cases found; exact same
      · split at found
        · next same => cases found; exact same
        · obtain ⟨same, found⟩ := Option.ite_none_right_eq_some.mp found
          cases found
          exact same
  · rintro rfl
    cases unit <;> rfl

theorem name_ne_nil (unit : TimeUnit) : unit.name ≠ [] := by
  cases unit <;> exact List.cons_ne_nil _ _

theorem isAlpha_of_mem_name (unit : TimeUnit) : ∀ c ∈ unit.name, c.isAlpha := by
  cases unit <;> exact List.all_eq_true.mp rfl

theorem one_le_millis (unit : TimeUnit) : 1 ≤ unit.millis := by
  cases unit <;> decide

end TimeUnit

/-- An amount in decimal digits, however many, and a unit. -/
@[ext]
structure Segment where
  digits : List Char
  unit : TimeUnit
  present : digits ≠ []
  all : ∀ c ∈ digits, c.isDigit

namespace Segment

def chars (segment : Segment) : List Char :=
  segment.digits ++ segment.unit.name

/-- The amount in its unit. -/
def amount (segment : Segment) : Int :=
  natOfDigits segment.digits

/-- The amount in milliseconds. -/
def millis (segment : Segment) : Int :=
  segment.amount * segment.unit.millis

/-- The amount, in its unit, fits in 64 bits. -/
def IsBounded (segment : Segment) : Prop :=
  segment.amount ≤ 0x7fffffffffffffff

instance (segment : Segment) : Decidable segment.IsBounded :=
  inferInstanceAs (Decidable (_ ≤ _))

/-- The characters of segments that follow each other. -/
def text (segments : List Segment) : List Char :=
  segments.flatMap chars

/-- The milliseconds of segments that follow each other. -/
def total (segments : List Segment) : Int :=
  (segments.map millis).sum

variable {segment : Segment} {segments others : List Segment}

@[simp]
theorem text_cons : text (segment :: segments) = segment.chars ++ text segments := rfl

@[simp]
theorem total_cons : total (segment :: segments) = segment.millis + total segments :=
  List.sum_cons

theorem text_append : text (segments ++ others) = text segments ++ text others :=
  List.flatMap_append

theorem total_append : total (segments ++ others) = total segments + total others := by
  rw [total, List.map_append, List.sum_append]
  rfl

theorem amount_nonneg (segment : Segment) : 0 ≤ segment.amount :=
  Int.natCast_nonneg _

theorem amount_le_millis (segment : Segment) : segment.amount ≤ segment.millis := by
  have scaled := Int.mul_le_mul_of_nonneg_left segment.unit.one_le_millis segment.amount_nonneg
  rwa [Int.mul_one] at scaled

theorem total_nonneg (segments : List Segment) : 0 ≤ total segments := by
  induction segments with
  | nil => exact Int.le_refl 0
  | cons segment segments ih =>
      have amount := segment.amount_nonneg
      have millis := segment.amount_le_millis
      rw [total_cons]
      omega

theorem isDigit_of_mem_head?_chars (segment : Segment) (rest : List Char) :
    ∀ c ∈ (segment.chars ++ rest).head?, c.isDigit := by
  obtain ⟨digits, unit, present, all⟩ := segment
  cases digits with
  | nil => exact absurd rfl present
  | cons first digits =>
      rintro c ⟨⟩
      exact all first List.mem_cons_self

theorem isDigit_of_mem_head?_text (segments : List Segment) :
    ∀ c ∈ (text segments).head?, c.isDigit := by
  cases segments with
  | nil => nofun
  | cons segment segments => exact segment.isDigit_of_mem_head?_chars _

theorem chars_ne_nil (segment : Segment) : segment.chars ≠ [] :=
  List.append_ne_nil_of_left_ne_nil segment.present _

end Segment

/-! ## Taking the first segment -/

theorem not_isAlpha_of_isDigit {c : Char} (digit : c.isDigit) : ¬ c.isAlpha := by
  have high : c.toNat ≤ 57 := (Char.isDigit_iff_toNat.mp digit).2
  intro alpha
  have low : 65 ≤ c.toNat := by
    rcases Bool.or_eq_true_iff.mp alpha with upper | lower
    · exact UInt32.le_iff_toNat_le.mp (of_decide_eq_true upper).1
    · have low : 97 ≤ c.toNat :=
        UInt32.le_iff_toNat_le.mp (of_decide_eq_true (Bool.and_eq_true_iff.mp lower).1)
      omega
  omega

/-- A run of characters of one kind ends before the first of another kind. -/
theorem span_append {kind : Char → Bool} {front rest : List Char} (all : ∀ c ∈ front, kind c)
    (stop : ∀ c ∈ rest.head?, ¬ kind c) : (front ++ rest).span kind = (front, rest) := by
  rw [List.span_eq_takeWhile_dropWhile, List.takeWhile_append_of_pos all,
    List.dropWhile_append_of_pos all]
  cases rest with
  | nil => simp
  | cons c rest => simp [stop c rfl]

theorem splitSegment_eq (cs : List Char) :
    splitSegment cs = (cs.takeWhile Char.isDigit, (cs.dropWhile Char.isDigit).takeWhile Char.isAlpha,
      (cs.dropWhile Char.isDigit).dropWhile Char.isAlpha) := by
  simp [splitSegment, List.span_eq_takeWhile_dropWhile]

/-- The parts that are split off make up the text. -/
theorem append_splitSegment (cs : List Char) :
    (splitSegment cs).1 ++ ((splitSegment cs).2.1 ++ (splitSegment cs).2.2) = cs := by
  rw [splitSegment_eq, List.takeWhile_append_dropWhile, List.takeWhile_append_dropWhile]

/-- A segment ends where the next one starts. -/
theorem splitSegment_chars_append (segment : Segment) {rest : List Char}
    (next : ∀ c ∈ rest.head?, c.isDigit) :
    splitSegment (segment.chars ++ rest) = (segment.digits, segment.unit.name, rest) := by
  have letter : ∀ c ∈ (segment.unit.name ++ rest).head?, ¬ c.isDigit := by
    cases segment.unit <;> rintro c ⟨⟩ <;> decide
  have number := span_append segment.all letter
  have unit := span_append segment.unit.isAlpha_of_mem_name fun c first =>
    not_isAlpha_of_isDigit (next c first)
  rw [Segment.chars, List.append_assoc]
  simp only [splitSegment, number, unit]

theorem segmentMillis_eq {segment : Segment} (bounded : segment.IsBounded) :
    segmentMillis segment.digits segment.unit.name = .ok (wrap64 segment.millis) := by
  have held : int64.holds segment.amount :=
    holds_int64_iff.mpr ⟨Int.le_trans (by decide) segment.amount_nonneg, bounded⟩
  have read : int64.read? segment.digits = some segment.amount :=
    read?_eq_some_iff.mpr ⟨.plain segment.present segment.all, held⟩
  have unit := TimeUnit.ofName?_eq_some_iff.mpr (rfl : segment.unit.name = segment.unit.name)
  have given : (segment.digits.isEmpty || segment.unit.name.isEmpty) = false := by
    simp [segment.present, segment.unit.name_ne_nil]
  simp [segmentMillis, given, read, unit, Segment.millis]

/-- Only a bounded segment has a number of milliseconds. -/
theorem exists_segment_of_segmentMillis {digits unit : List Char} {millis : Int}
    (all : ∀ c ∈ digits, c.isDigit) (counted : segmentMillis digits unit = .ok millis) :
    ∃ segment : Segment, segment.IsBounded ∧ segment.digits = digits ∧
      segment.unit.name = unit ∧ millis = wrap64 segment.millis := by
  unfold segmentMillis at counted
  split at counted
  · cases counted
  · next given =>
      split at counted
      · cases counted
      · next amount read =>
          split at counted
          · cases counted
          · next timeUnit named =>
              obtain ⟨decimal, held⟩ := read?_eq_some_iff.mp read
              have present : digits ≠ [] := by
                rintro rfl
                exact given rfl
              have plain : amount = natOfDigits digits := decimal.eq (.plain present all)
              have bound := (holds_int64_iff.mp held).2
              cases counted
              refine ⟨⟨digits, timeUnit, present, all⟩, ?_, rfl,
                (TimeUnit.ofName?_eq_some_iff.mp named).symm, ?_⟩
              · rw [plain] at bound
                exact bound
              · rw [plain]
                rfl

/-- A text falls into segments in one way only. -/
theorem Segment.text_inj {segments others : List Segment} (same : text segments = text others) :
    segments = others := by
  induction segments generalizing others with
  | nil =>
      cases others with
      | nil => rfl
      | cons other others => exact absurd same.symm (List.append_ne_nil_of_left_ne_nil other.chars_ne_nil _)
  | cons segment segments ih =>
      cases others with
      | nil => exact absurd same (List.append_ne_nil_of_left_ne_nil segment.chars_ne_nil _)
      | cons other others =>
          have first := splitSegment_chars_append segment (isDigit_of_mem_head?_text segments)
          have second := splitSegment_chars_append other (isDigit_of_mem_head?_text others)
          rw [text_cons, text_cons] at same
          rw [same, second, Prod.mk.injEq, Prod.mk.injEq] at first
          obtain ⟨digits, name, rest⟩ := first
          have unit : some segment.unit = some other.unit := by
            rw [← TimeUnit.ofName?_eq_some_iff.mpr rfl, ← name]
            exact TimeUnit.ofName?_eq_some_iff.mpr rfl
          rw [ih rest.symm, Segment.ext digits.symm (Option.some.inj unit)]

/-! ## Adding up -/

section

variable {fuel : Nat} {total : Int} {cs : List Char} (more : cs ≠ [])

include more

theorem sumSegments_of_error {failure : Failure}
    (stopped : segmentMillis (splitSegment cs).1 (splitSegment cs).2.1 = .error failure) :
    sumSegments (fuel + 1) total cs = .error failure := by
  cases cs with
  | nil => exact absurd rfl more
  | cons c cs => simp [sumSegments, stopped]

theorem sumSegments_of_ok {millis : Int}
    (counted : segmentMillis (splitSegment cs).1 (splitSegment cs).2.1 = .ok millis) :
    sumSegments (fuel + 1) total cs =
      sumSegments fuel (wrap64 (total + millis)) (splitSegment cs).2.2 := by
  cases cs with
  | nil => exact absurd rfl more
  | cons c cs => simp [sumSegments, counted]

end

/-- Where adding the segments of a text to a total ends, and after how many rounds: at the end of
the text, or at the first segment that has no number of milliseconds. -/
inductive EndsAfter : (rounds : Nat) → (total : Int) → List Char → Except Failure Int → Prop
  | done (total : Int) : EndsAfter 0 total [] (.ok total)
  | failed {total : Int} {cs : List Char} {failure : Failure} (more : cs ≠ [])
      (stopped : segmentMillis (splitSegment cs).1 (splitSegment cs).2.1 = .error failure) :
      EndsAfter 1 total cs (.error failure)
  | next {rounds : Nat} {total millis : Int} {cs : List Char} {result : Except Failure Int}
      (more : cs ≠ [])
      (counted : segmentMillis (splitSegment cs).1 (splitSegment cs).2.1 = .ok millis)
      (rest : EndsAfter rounds (wrap64 (total + millis)) (splitSegment cs).2.2 result) :
      EndsAfter (rounds + 1) total cs result

/-- A segment that has a number of milliseconds takes at least one character. -/
theorem length_rest_lt {cs : List Char} {millis : Int}
    (counted : segmentMillis (splitSegment cs).1 (splitSegment cs).2.1 = .ok millis) :
    (splitSegment cs).2.2.length < cs.length := by
  have parts := congrArg List.length (append_splitSegment cs)
  have present : (splitSegment cs).1.length ≠ 0 := by
    intro none
    rw [List.eq_nil_of_length_eq_zero none] at counted
    cases counted
  simp only [List.length_append] at parts
  omega

/-- Adding up ends after as many rounds as there are characters, or fewer. -/
theorem exists_endsAfter {fuel : Nat} {cs : List Char} (enough : cs.length ≤ fuel) (total : Int) :
    ∃ rounds ≤ cs.length, EndsAfter rounds total cs (sumSegments fuel total cs) := by
  induction fuel generalizing cs total with
  | zero =>
      rw [List.eq_nil_of_length_eq_zero (Nat.le_zero.mp enough)]
      exact ⟨0, Nat.le_refl 0, .done total⟩
  | succ fuel ih =>
      by_cases more : cs = []
      · rw [more]
        exact ⟨0, Nat.le_refl 0, .done total⟩
      · cases counted : segmentMillis (splitSegment cs).1 (splitSegment cs).2.1 with
        | error failure =>
            rw [sumSegments_of_error more counted]
            exact ⟨1, List.length_pos_iff.mpr more, .failed more counted⟩
        | ok millis =>
            have shorter := length_rest_lt counted
            obtain ⟨rounds, few, ends⟩ := ih
              (Nat.le_of_lt_succ (Nat.lt_of_lt_of_le shorter enough)) (wrap64 (total + millis))
            rw [sumSegments_of_ok more counted]
            exact ⟨rounds + 1, by omega, .next more counted ends⟩

/-- What ends with a total is a sequence of bounded segments. -/
theorem EndsAfter.exists_segments {rounds : Nat} {total value : Int} {cs : List Char}
    (ends : EndsAfter rounds total cs (.ok value)) :
    ∃ segments, (∀ segment ∈ segments, segment.IsBounded) ∧ cs = Segment.text segments := by
  generalize same : (Except.ok value : Except Failure Int) = result at ends
  induction ends with
  | done total => exact ⟨[], nofun, rfl⟩
  | failed more stopped => cases same
  | @next rounds total millis cs result more counted rest ih =>
      obtain ⟨segments, bounded, split⟩ := ih same
      have all : ∀ c ∈ (splitSegment cs).1, c.isDigit := by
        rw [splitSegment_eq]
        exact fun c inside => List.all_eq_true.mp List.all_takeWhile c inside
      obtain ⟨segment, first, digits, name, -⟩ := exists_segment_of_segmentMillis all counted
      refine ⟨segment :: segments, List.forall_mem_cons.mpr ⟨first, bounded⟩, ?_⟩
      rw [Segment.text_cons, Segment.chars, digits, name, ← split, List.append_assoc,
        append_splitSegment]

/-- The sum wraps around as a whole, whatever wraps around on the way. -/
theorem wrap64_add_wrap64 (total millis : Int) :
    wrap64 (total + wrap64 millis) = wrap64 (total + millis) :=
  Int.add_bmod_bmod

theorem wrap64_wrap64_add (total millis : Int) :
    wrap64 (wrap64 total + millis) = wrap64 (total + millis) :=
  Int.bmod_add_bmod

/-- Bounded segments are added up. -/
theorem sumSegments_text {segments : List Segment} (bounded : ∀ segment ∈ segments, segment.IsBounded)
    {rounds : Nat} (enough : (Segment.text segments).length ≤ rounds) {total : Int}
    (held : int64.holds total) :
    sumSegments rounds total (Segment.text segments) =
      .ok (wrap64 (total + Segment.total segments)) := by
  induction segments generalizing rounds total with
  | nil =>
      have nothing : total + Segment.total [] = total := Int.add_zero total
      rw [nothing, wrap64_eq_self held]
      cases rounds <;> rfl
  | cons segment segments ih =>
      obtain ⟨first, bounded⟩ := List.forall_mem_cons.mp bounded
      have positive : 0 < segment.chars.length := List.length_pos_iff.mpr segment.chars_ne_nil
      rw [Segment.text_cons, List.length_append] at enough
      obtain ⟨rounds, rfl⟩ := Nat.exists_eq_succ_of_ne_zero (show rounds ≠ 0 by omega)
      have more : segment.chars ++ Segment.text segments ≠ [] :=
        List.append_ne_nil_of_left_ne_nil segment.chars_ne_nil _
      have split := splitSegment_chars_append segment (Segment.isDigit_of_mem_head?_text segments)
      have counted : segmentMillis (splitSegment (segment.chars ++ Segment.text segments)).1
          (splitSegment (segment.chars ++ Segment.text segments)).2.1 =
            .ok (wrap64 segment.millis) := by
        rw [split]
        exact segmentMillis_eq first
      rw [Segment.text_cons, Segment.total_cons, sumSegments_of_ok more counted, split,
        ih bounded (by omega) (holds_wrap64 _), wrap64_add_wrap64, wrap64_wrap64_add, Int.add_assoc]

end AgentKit.Duration
