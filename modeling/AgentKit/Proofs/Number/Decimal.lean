/-
# Decimal integers

What the reader of decimal integers takes is told here by a grammar: one or more digits,
with a minus sign before them where the format has a sign. Texts may have any number of
digits and leading zeros; what counts is whether the number they denote is in the
format's range. The decimal text of an integer denotes that integer and no other.
-/

import AgentKit.Number.Format

namespace AgentKit.IntFormat

/-- The integer that a decimal text denotes. A minus sign is only allowed with `signed`. -/
inductive IsDecimal (signed : Bool) : List Char → Int → Prop
  | plain {digits : List Char} (present : digits ≠ []) (all : ∀ c ∈ digits, c.isDigit) :
      IsDecimal signed digits (Text.natOfDigits digits)
  | minus {digits : List Char} (allowed : signed = true) (present : digits ≠ [])
      (all : ∀ c ∈ digits, c.isDigit) :
      IsDecimal signed ('-' :: digits) (-(Text.natOfDigits digits : Int))

variable {signed : Bool} {cs : List Char} {n m : Int}

theorem readDecimal?_eq_some_iff : readDecimal? signed cs = some n ↔ IsDecimal signed cs n := by
  constructor
  · intro read
    unfold readDecimal? at read
    split at read
    · next digits =>
        obtain ⟨allowed, mapped⟩ := Option.ite_none_right_eq_some.mp read
        obtain ⟨_, bound, rfl⟩ := Option.map_eq_some_iff.mp mapped
        obtain ⟨_, found, same⟩ := Option.bind_eq_some_iff.mp bound
        obtain ⟨present, all, rfl⟩ := Text.decimal?_eq_some_iff.mp found
        cases same
        exact .minus allowed present all
    · obtain ⟨_, bound, rfl⟩ := Option.map_eq_some_iff.mp read
      obtain ⟨_, found, same⟩ := Option.bind_eq_some_iff.mp bound
      obtain ⟨present, all, rfl⟩ := Text.decimal?_eq_some_iff.mp found
      cases same
      exact .plain present all
  · intro decimal
    unfold readDecimal?
    cases decimal with
    | plain present all =>
        split
        · -- A minus sign is no digit.
          exact absurd (all '-' List.mem_cons_self) (by decide)
        · rw [Text.decimal?_eq_some_iff.mpr ⟨present, all, rfl⟩]
          rfl
    | minus allowed present all =>
        change (if signed then _ else none) = _
        rw [if_pos allowed, Text.decimal?_eq_some_iff.mpr ⟨present, all, rfl⟩]
        rfl

/-- A format reads the decimal texts of the integers in its range. -/
theorem read?_eq_some_iff {format : IntFormat} :
    format.read? cs = some n ↔ IsDecimal format.signed cs n ∧ format.holds n := by
  rw [read?, Option.filter_eq_some_iff, readDecimal?_eq_some_iff]

theorem IsDecimal.eq (first : IsDecimal signed cs n) (second : IsDecimal signed cs m) : n = m :=
  Option.some.inj ((readDecimal?_eq_some_iff.mpr first).symm.trans
    (readDecimal?_eq_some_iff.mpr second))

/-- A text without sign may also be read where a sign is allowed. -/
theorem IsDecimal.withSign (decimal : IsDecimal signed cs n) : IsDecimal true cs n := by
  cases decimal with
  | plain present all => exact .plain present all
  | minus _ present all => exact .minus rfl present all

theorem toList_toString_natCast (n : Nat) : (toString (n : Int)).toList = Nat.toDigits 10 n := by
  change n.repr.toList = _
  rw [Nat.repr_eq_ofList_toDigits, String.toList_ofList]

theorem toList_toString_negSucc (n : Nat) :
    (toString (Int.negSucc n)).toList = '-' :: Nat.toDigits 10 (n + 1) := by
  change ("-" ++ (n + 1).repr).toList = _
  rw [String.toList_append, Nat.repr_eq_ofList_toDigits]
  simp

/-- The decimal text of an integer denotes it. -/
theorem isDecimal_toString (sign : 0 ≤ n ∨ signed = true) :
    IsDecimal signed (toString n).toList n := by
  have present : ∀ m : Nat, Nat.toDigits 10 m ≠ [] := fun m => Nat.toDigits_ne_nil
  have all : ∀ m : Nat, ∀ c ∈ Nat.toDigits 10 m, c.isDigit := fun m c inside =>
    Nat.isDigit_of_mem_toDigits (by decide) (by decide) inside
  have value : ∀ m : Nat, Text.natOfDigits (Nat.toDigits 10 m) = m := fun m =>
    Nat.ofDigitChars_ten_toDigits
  cases n with
  | ofNat magnitude =>
      have plain : IsDecimal signed _ _ := .plain (present magnitude) (all magnitude)
      rw [value] at plain
      rw [Int.ofNat_eq_natCast, toList_toString_natCast]
      exact plain
  | negSucc below =>
      have allowed := sign.resolve_left (by omega)
      have minus := IsDecimal.minus allowed (present (below + 1)) (all (below + 1))
      rw [value] at minus
      rw [toList_toString_negSucc]
      exact minus

/-- The decimal text of an integer denotes no other one. -/
theorem eq_of_isDecimal_toString (decimal : IsDecimal signed (toString n).toList m) : m = n :=
  decimal.withSign.eq (isDecimal_toString (.inr rfl))

end AgentKit.IntFormat
