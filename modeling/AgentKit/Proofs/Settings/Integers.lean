/-
# Integer settings

An integer setting is read as the very integer that is written, or it is refused: nothing
is cut to fit. It does not matter whether the integer comes as text or as JSON, nor with
which sign a JSON integer is stored. Of all other texts and JSON values, none is read as
an integer.
-/

import AgentKit.Proofs.Number.Decimal
import AgentKit.Proofs.Settings.Failures

namespace AgentKit.SettingKind

open IntFormat

/-- An integer is read as it is if the format can hold it, and refused otherwise. -/
def IsReadExactly (format : IntFormat) (n : Int) (result : Except Error Int) : Prop :=
  (format.holds n → result = .ok n) ∧ (¬ format.holds n → IsRefused result)

variable {format : IntFormat}

theorem isRefused_misfit {α : Type} (message : String) :
    IsRefused (misfit message : Except Error α) :=
  ⟨_, rfl, rfl, rfl⟩

/-! ## Texts -/

theorem readInteger_eq_ok_iff {text : String} {n : Int} :
    readInteger format text = .ok n ↔ IsDecimal format.signed text.toList n ∧ format.holds n := by
  rw [← read?_eq_some_iff, readInteger]
  cases format.read? text.toList with
  | some value => simp
  | none => simp [misfit]

theorem isRefused_readInteger {text : String}
    (other : ∀ n, ¬ (IsDecimal format.signed text.toList n ∧ format.holds n)) :
    IsRefused (readInteger format text) := by
  cases read : readInteger format text with
  | ok n => exact absurd (readInteger_eq_ok_iff.mp read) (other n)
  | error error => exact ⟨error, rfl, @isMisfit_of_ofText (integer format) _ _ read⟩

/-- The decimal text of an integer is read exactly. -/
theorem isReadExactly_readInteger (format : IntFormat) (n : Int) :
    IsReadExactly format n (readInteger format (toString n)) := by
  constructor
  · intro held
    have sign : 0 ≤ n ∨ format.signed = true := by
      by_cases signed : format.signed
      · exact .inr signed
      · have low := (holds_iff.mp held).1
        rw [least, if_neg signed] at low
        exact .inl low
    exact readInteger_eq_ok_iff.mpr ⟨isDecimal_toString sign, held⟩
  · rintro beyond
    refine isRefused_readInteger ?_
    rintro m ⟨decimal, held⟩
    rw [eq_of_isDecimal_toString decimal] at held
    exact beyond held

/-! ## JSON -/

/-- A stored integer is read exactly, whatever the kind of word it is stored in. -/
theorem isReadExactly_integerOfStored (positive : 0 < format.bits) (fits : format.bits ≤ 64)
    (stored : StoredInt) :
    IsReadExactly format stored.value (integerOfStored format stored) := by
  constructor
  · intro held
    rw [integerOfStored, if_pos ((admits_iff fits stored).mpr held), narrow_eq_self positive held]
  · intro beyond
    rw [integerOfStored, if_neg (mt (admits_iff fits stored).mp beyond)]
    exact isRefused_misfit _

theorem isRefused_integerOfJson {value : Json} (other : ∀ n, value ≠ .int n) :
    IsRefused (integerOfJson format value) := by
  cases value with
  | int n => exact absurd rfl (other n)
  | null | bool | float | str | arr | obj => exact isRefused_misfit _

/-- An integer setting of up to 64 bits takes the integers in its range exactly and refuses the
others, in the same way from JSON, however they are stored there, and as decimal texts. The texts
it takes are the decimal ones that denote an integer in the range, and of JSON values it takes
integers only. -/
theorem integers_are_never_narrowed (positive : 0 < format.bits) (fits : format.bits ≤ 64) :
    (∀ n : Int, -0x8000000000000000 ≤ n → n < 0x10000000000000000 →
      IsReadExactly format n ((integer format).ofJson (.int n)) ∧
        IsReadExactly format n ((integer format).ofText (toString n))) ∧
      (∀ stored : StoredInt, IsReadExactly format stored.value (integerOfStored format stored)) ∧
      (∀ (text : String) (n : Int), (integer format).ofText text = .ok n ↔
        IsDecimal format.signed text.toList n ∧ format.holds n) ∧
      (∀ text : String, (∀ n, ¬ (IsDecimal format.signed text.toList n ∧ format.holds n)) →
        IsRefused ((integer format).ofText text)) ∧
      ∀ value : Json, (∀ n, value ≠ .int n) → IsRefused ((integer format).ofJson value) := by
  refine ⟨?_, isReadExactly_integerOfStored positive fits, fun _ _ => readInteger_eq_ok_iff,
    fun _ => isRefused_readInteger, fun _ => isRefused_integerOfJson⟩
  intro n low high
  have stored := isReadExactly_integerOfStored positive fits (.ofInt n)
  rw [StoredInt.value_ofInt low high] at stored
  exact ⟨stored, isReadExactly_readInteger format n⟩

/-- The greatest integer without sign, and one that would have the same word. -/
theorem integers_are_never_narrowed_of_uint64 :
    0 < uint64.bits ∧ uint64.bits ≤ 64 ∧
      (integer uint64).ofJson (.int 18446744073709551615) = .ok (18446744073709551615 : Int) ∧
      (integer uint64).ofText (toString (18446744073709551615 : Int)) =
        .ok (18446744073709551615 : Int) ∧
      IsRefused ((integer uint64).ofJson (.int (-1))) ∧
      IsRefused ((integer uint64).ofText (toString (-1 : Int))) := by
  have positive : 0 < uint64.bits := by decide
  have fits : uint64.bits ≤ 64 := by decide
  obtain ⟨exactly, -⟩ := integers_are_never_narrowed positive fits
  obtain ⟨json, text⟩ := exactly 18446744073709551615 (by decide) (by decide)
  obtain ⟨negativeJson, negativeText⟩ := exactly (-1) (by decide) (by decide)
  exact ⟨positive, fits, json.1 (by decide), text.1 (by decide), negativeJson.2 (by decide),
    negativeText.2 (by decide)⟩

end AgentKit.SettingKind
