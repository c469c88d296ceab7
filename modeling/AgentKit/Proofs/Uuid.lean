/-
# Random bits in identifiers

A UUID shows all bits of the two words it is made of, except for the six that version and
variant replace. What carries this is that the five fields lie side by side in the words
without gap or overlap, and that each is written with as many digits as its bits need:
with fewer, texts would differ in length and their parts could be confused.
-/

import AgentKit.Proofs.Number.Hexadecimal
import AgentKit.Proofs.Text.Bytes
import AgentKit.Uuid

namespace AgentKit.Uuid

/-! ## Bits that are replaced -/

/-- The bits of the first word that give way to the version. -/
def versionBits : List Nat := [12, 13, 14, 15]

/-- The bits of the second word that give way to the variant. -/
def variantBits : List Nat := [62, 63]

/-- The bits of a word that are not replaced. -/
def otherBits (replaced : List Nat) : List Nat :=
  (List.range 64).filter (· ∉ replaced)

theorem word_eq_iff {word word' : UInt64} :
    word = word' ↔ ∀ bit < 64, word.toNat.testBit bit = word'.toNat.testBit bit := by
  refine ⟨fun same _ _ => same ▸ rfl, fun same => UInt64.toNat_inj.mp ?_⟩
  refine Nat.eq_of_testBit_eq fun bit => ?_
  by_cases below : bit < 64
  · exact same bit below
  · have above : ∀ word : UInt64, word.toNat.testBit bit = false := fun word =>
      Nat.testBit_lt_two_pow <| Nat.lt_of_lt_of_le word.toNat_lt
        (Nat.pow_le_pow_right (by decide) (Nat.le_of_not_lt below))
    rw [above, above]

/-- A mask and a mark replace some bits of a word: the mask clears just these, and the mark
sets none but them. -/
def Replaces (mask mark : UInt64) (replaced : List Nat) : Prop :=
  ∀ bit < 64, mask.toNat.testBit bit = decide (bit ∉ replaced) ∧
    (mark.toNat.testBit bit → bit ∈ replaced)

section Replaces

variable {mask mark word word' : UInt64} {replaced : List Nat}

theorem Replaces.testBit (replaces : Replaces mask mark replaced) {bit : Nat} (below : bit < 64) :
    ((word &&& mask) ||| mark).toNat.testBit bit =
      if bit ∈ replaced then mark.toNat.testBit bit else word.toNat.testBit bit := by
  obtain ⟨cleared, marked⟩ := replaces bit below
  rw [UInt64.toNat_or, UInt64.toNat_and, Nat.testBit_or, Nat.testBit_and, cleared]
  by_cases inside : bit ∈ replaced
  · simp [inside]
  · have unmarked : mark.toNat.testBit bit = false := by simpa [inside] using marked
    simp [inside, unmarked]

theorem Replaces.testBit_of_mem (replaces : Replaces mask mark replaced)
    (below : ∀ bit ∈ replaced, bit < 64) :
    ∀ bit ∈ replaced,
      ((word &&& mask) ||| mark).toNat.testBit bit = mark.toNat.testBit bit := by
  intro bit inside
  rw [replaces.testBit (below bit inside), if_pos inside]

/-- Two words become one if and only if they agree on the bits that are not replaced. -/
theorem Replaces.eq_iff (replaces : Replaces mask mark replaced) :
    (word &&& mask) ||| mark = (word' &&& mask) ||| mark ↔
      ∀ bit ∈ otherBits replaced, word.toNat.testBit bit = word'.toNat.testBit bit := by
  simp only [word_eq_iff, otherBits, List.mem_filter, List.mem_range, decide_eq_true_eq, and_imp]
  refine forall₂_congr fun bit below => ?_
  rw [replaces.testBit below, replaces.testBit below]
  by_cases inside : bit ∈ replaced <;> simp [inside]

end Replaces

theorem replaces_version : Replaces 0xffffffffffff0fff 0x0000000000004000 versionBits := by
  unfold Replaces
  decide

theorem replaces_variant : Replaces 0x3fffffffffffffff 0x8000000000000000 variantBits := by
  unfold Replaces
  decide

/-- The version stands in the fourth digit from the right, counted by sixteens. -/
theorem versionDigit (word : UInt64) : (stampVersion word).toNat / 0x1000 % 16 = 4 := by
  have bits : ∀ bit ∈ versionBits,
      (stampVersion word).toNat.testBit bit = Nat.testBit 0x4000 bit :=
    replaces_version.testBit_of_mem (by decide)
  simp only [versionBits, List.forall_mem_cons, Nat.testBit_eq_decide_div_mod_eq] at bits
  simp at bits
  omega

theorem variantDigit (word : UInt64) :
    (stampVariant word).toNat / 0x1000000000000000 % 16 ∈ [8, 9, 10, 11] := by
  have bits : ∀ bit ∈ variantBits,
      (stampVariant word).toNat.testBit bit = Nat.testBit 0x8000000000000000 bit :=
    replaces_variant.testBit_of_mem (by decide)
  simp only [variantBits, List.forall_mem_cons, Nat.testBit_eq_decide_div_mod_eq] at bits
  simp at bits ⊢
  omega

/-! ## Fields -/

theorem toNat_shiftRight (word : UInt64) {bits : UInt64} (below : bits.toNat < 64) :
    (word >>> bits).toNat = word.toNat / Nat.pow 2 bits.toNat := by
  rw [UInt64.toNat_shiftRight, Nat.mod_eq_of_lt below]
  exact Nat.shiftRight_eq_div_pow ..

theorem toNat_and_lowest (word : UInt64) (bits : Nat) {mask : UInt64}
    (lowest : mask.toNat = Nat.pow 2 bits - 1) :
    (word &&& mask).toNat = word.toNat % Nat.pow 2 bits := by
  rw [UInt64.toNat_and, lowest]
  exact Nat.and_two_pow_sub_one_eq_mod ..

/-- How many digits the fields have, and what they stand for. -/
def numbers (first second : UInt64) : List (Nat × Nat) :=
  [(8, first.toNat / 0x100000000), (4, first.toNat / 0x10000 % 0x10000),
    (4, first.toNat % 0x10000), (4, second.toNat / 0x1000000000000),
    (12, second.toNat % 0x1000000000000)]

variable (first second first' second' : UInt64)

theorem numbers_eq :
    numbers first second = (fields first second).map fun field => (field.1, field.2.toNat) := by
  simp only [fields, List.map_cons, List.map_nil]
  rw [toNat_shiftRight first (by decide), toNat_and_lowest (first >>> 16) 16 rfl,
    toNat_shiftRight first (by decide), toNat_and_lowest first 16 rfl,
    toNat_shiftRight second (by decide), toNat_and_lowest second 48 rfl]
  rfl

/-- No field needs more digits than it has. -/
theorem numbers_fit :
    ∀ number ∈ numbers first second, 0 < number.1 ∧ number.2 < Nat.pow 16 number.1 := by
  have bound := first.toNat_lt
  have bound' := second.toNat_lt
  simp only [numbers, List.forall_mem_cons, Nat.pow_eq, Nat.reducePow]
  refine ⟨?_, ?_, ?_, ?_, ?_, List.forall_mem_nil _⟩ <;> omega

/-- The digits of the fields. -/
def digits : List (List Char) :=
  (numbers first second).map fun (width, number) => Text.fixedHex width number

theorem ofWords_eq :
    ofWords first second =
      String.ofList (['-'].intercalate (digits (stampVersion first) (stampVariant second))) := by
  have fit := numbers_fit (stampVersion first) (stampVariant second)
  rw [ofWords, digits, numbers_eq, List.map_map]
  rw [numbers_eq] at fit
  congr 2
  refine List.map_congr_left fun field listed => ?_
  obtain ⟨positive, fits⟩ := fit _ (List.mem_map_of_mem listed)
  exact Text.paddedHex_eq_fixedHex positive fits

variable {first second first' second'}

/-- The digits tell the words, since each bit of them is in one of the fields. -/
theorem digits_inj (same : digits first second = digits first' second') :
    first = first' ∧ second = second' := by
  have fit := numbers_fit first second
  have fit' := numbers_fit first' second'
  simp only [numbers, List.forall_mem_cons] at fit fit'
  simp only [digits, numbers, List.map_cons, List.cons.injEq] at same
  have field1 := Text.fixedHex_inj fit.1.2 fit'.1.2 same.1
  have field2 := Text.fixedHex_inj fit.2.1.2 fit'.2.1.2 same.2.1
  have field3 := Text.fixedHex_inj fit.2.2.1.2 fit'.2.2.1.2 same.2.2.1
  have field4 := Text.fixedHex_inj fit.2.2.2.1.2 fit'.2.2.2.1.2 same.2.2.2.1
  have field5 := Text.fixedHex_inj fit.2.2.2.2.1.2 fit'.2.2.2.2.1.2 same.2.2.2.2.1
  rw [← UInt64.toNat_inj, ← UInt64.toNat_inj]
  omega

/-- Parts of the same lengths are known from what is put together of them. -/
theorem intercalate_inj {α : Type} {mark : List α} {parts others : List (List α)}
    (lengths : parts.map List.length = others.map List.length)
    (same : mark.intercalate parts = mark.intercalate others) : parts = others := by
  induction parts generalizing others with
  | nil => simpa using lengths.symm
  | cons part parts ih =>
      cases others with
      | nil => simp at lengths
      | cons other others =>
          obtain ⟨first, later⟩ := List.cons.inj lengths
          cases parts with
          | nil =>
              obtain rfl : others = [] := by simpa using later.symm
              simpa using same
          | cons next parts =>
              cases others with
              | nil => cases later
              | cons next' others =>
                  simp only [List.intercalate_cons_cons, List.append_assoc] at same
                  obtain ⟨here, rest⟩ := List.append_inj same first
                  rw [here, ih later (List.append_cancel_left rest)]

theorem ofWords_eq_iff :
    ofWords first second = ofWords first' second' ↔
      stampVersion first = stampVersion first' ∧ stampVariant second = stampVariant second' := by
  constructor
  · intro same
    rw [ofWords_eq, ofWords_eq] at same
    refine digits_inj (intercalate_inj ?_ (String.ofList_inj.mp same))
    simp [digits, numbers]
  · rintro ⟨first, second⟩
    rw [ofWords, first, second, ofWords]

/-! ## Positions -/

/-- Characters that may stand one after the other from a position on. -/
def FitFrom (start : Nat) (cs : List Char) : Prop :=
  ∀ place ∈ cs.zipIdx start, fits place.2 place.1

theorem fitFrom_cons_iff {start : Nat} {c : Char} {cs : List Char} :
    FitFrom start (c :: cs) ↔ fits start c ∧ FitFrom (start + 1) cs :=
  List.forall_mem_cons

theorem fitFrom_append_iff {start : Nat} {cs ds : List Char} :
    FitFrom start (cs ++ ds) ↔ FitFrom start cs ∧ FitFrom (start + cs.length) ds := by
  rw [FitFrom, List.zipIdx_append]
  exact List.forall_mem_append

/-- The positions of the hyphens. -/
def hyphens : List Nat := [8, 13, 18, 23]

/-- The positions of the version, the variant and the hyphens. -/
def markedPositions : List Nat := 14 :: 19 :: hyphens

theorem fits_iff {position : Nat} {c : Char} :
    fits position c ↔
      position ∈ hyphens ∧ c = '-' ∨ position = 14 ∧ c = '4' ∨
        position = 19 ∧ c ∈ ['8', '9', 'a', 'b'] ∨
        position ∉ markedPositions ∧ Text.isLowerHex c := by
  have inside : (position = 8 || position = 13 || position = 18 || position = 23) = true ↔
      position ∈ hyphens := by
    simp [hyphens, or_assoc]
  unfold fits
  simp only [inside]
  split
  next hyphen =>
    obtain ⟨notVersion, notVariant⟩ : position ≠ 14 ∧ position ≠ 19 := by
      simp only [hyphens, List.mem_cons, List.not_mem_nil, or_false] at hyphen
      omega
    simp [hyphen, markedPositions, notVersion, notVariant]
  next text =>
    split
    next version => simp [version, markedPositions, hyphens]
    next notVersion =>
      split
      next variant => simp [variant, markedPositions, hyphens, or_assoc]
      next notVariant => simp [text, notVersion, notVariant, markedPositions]

theorem toNat_le_of_fits {position : Nat} {c : Char} (fit : fits position c) : c.toNat ≤ 127 := by
  have ascii : ∀ c ∈ ['-', '4', '8', '9', 'a', 'b'], c.toNat ≤ 127 := by simp
  rcases fits_iff.mp fit with ⟨_, rfl⟩ | ⟨_, rfl⟩ | ⟨_, listed⟩ | ⟨_, hex⟩
  · exact ascii _ (by decide)
  · exact ascii _ (by decide)
  · exact ascii c (List.mem_cons_of_mem _ (List.mem_cons_of_mem _ listed))
  · exact Nat.le_trans (Text.toNat_le_of_isLowerHex hex) (by decide)

/-- Hyphens stand at their own positions and nowhere else. -/
theorem eq_hyphen_iff {position : Nat} {c : Char} (fit : fits position c) :
    c = '-' ↔ position ∈ hyphens := by
  rcases fits_iff.mp fit with ⟨inside, rfl⟩ | ⟨rfl, rfl⟩ | ⟨rfl, listed⟩ | ⟨outside, hex⟩
  · exact iff_of_true rfl inside
  · decide
  · refine iff_of_false ?_ (by decide)
    rintro rfl
    exact absurd listed (by decide)
  · refine iff_of_false ?_ fun inside =>
      outside (List.mem_cons_of_mem _ (List.mem_cons_of_mem _ inside))
    rintro rfl
    exact absurd hex (by decide)

/-- All positions but the marked ones take any digits. -/
theorem fitFrom_fixedHex {start width : Nat} (n : Nat)
    (unmarked : ∀ offset < width, start + offset ∉ markedPositions) :
    FitFrom start (Text.fixedHex width n) := by
  rintro ⟨c, position⟩ inside
  obtain ⟨offset, rfl⟩ := Nat.exists_eq_add_of_le (List.le_snd_of_mem_zipIdx inside)
  have below := List.snd_lt_add_of_mem_zipIdx inside
  have plain := unmarked offset (by simpa using below)
  have hex := Text.isLowerHex_of_mem_fixedHex (List.fst_mem_of_mem_zipIdx inside)
  exact fits_iff.mpr (.inr (.inr (.inr ⟨plain, hex⟩)))

/-- A field, a hyphen and what follows them. -/
theorem FitFrom.field {start width n : Nat} {rest : List Char}
    (here : FitFrom start (Text.fixedHex width n)) (hyphen : fits (start + width) '-')
    (later : FitFrom (start + width + 1) rest) :
    FitFrom start (Text.fixedHex width n ++ ['-'] ++ rest) := by
  rw [List.append_assoc, fitFrom_append_iff, List.singleton_append, fitFrom_cons_iff,
    Text.length_fixedHex]
  exact ⟨here, hyphen, later⟩

/-- A field of four digits of which the first one stands at a marked position. -/
theorem fitFrom_fixedHex_four {start n : Nat} (marked : fits start (Nat.digitChar (n / 0x1000 % 16)))
    (unmarked : ∀ offset < 3, start + 1 + offset ∉ markedPositions) :
    FitFrom start (Text.fixedHex 4 n) := by
  rw [Text.fixedHex_succ_eq_cons 3, fitFrom_cons_iff]
  exact ⟨marked, fitFrom_fixedHex n unmarked⟩

theorem fitFrom_version (word : UInt64) :
    FitFrom 14 (Text.fixedHex 4 ((stampVersion word).toNat % 0x10000)) := by
  have digit : (stampVersion word).toNat % 0x10000 / 0x1000 % 16 = 4 := by
    have version := versionDigit word
    omega
  exact fitFrom_fixedHex_four (digit ▸ rfl) (by decide)

theorem fitFrom_variant (word : UInt64) :
    FitFrom 19 (Text.fixedHex 4 ((stampVariant word).toNat / 0x1000000000000)) := by
  have eligible : ∀ digit ∈ [8, 9, 10, 11], fits 19 (Nat.digitChar digit) := by decide
  refine fitFrom_fixedHex_four (eligible _ ?_) (by decide)
  rw [Nat.div_div_eq_div_mul]
  exact variantDigit word

theorem isCanonical_iff {text : String} :
    isCanonical text ↔ text.toList.length = 36 ∧ FitFrom 0 text.toList := by
  simp [isCanonical, FitFrom]

/-- In a canonical text hyphens stand at their positions, and nothing else does. -/
theorem getElem?_eq_hyphen_iff {text : String} (canonical : isCanonical text) {position : Nat} :
    text.toList[position]? = some '-' ↔ position ∈ hyphens := by
  obtain ⟨length, fit⟩ := isCanonical_iff.mp canonical
  have at? : ∀ {c}, text.toList[position]? = some c → fits position c := fun {c} found =>
    fit (c, position) (List.mem_zipIdx_iff_getElem?.mpr found)
  refine ⟨fun found => (eq_hyphen_iff (at? found)).mp rfl, fun inside => ?_⟩
  have within : ∀ position ∈ hyphens, position < 36 := by decide
  have found := List.getElem?_eq_getElem (length ▸ within position inside)
  rw [found, (eq_hyphen_iff (at? found)).mpr inside]

theorem bytes_of_isCanonical {text : String} (canonical : isCanonical text) :
    Text.bytes text = text.toList.map Text.byteOf := by
  have ascii : Text.IsAscii text.toList := by
    intro c inside
    obtain ⟨position, found⟩ := List.mem_iff_getElem?.mp inside
    exact toNat_le_of_fits
      ((isCanonical_iff.mp canonical).2 (c, position) (List.mem_zipIdx_iff_getElem?.mpr found))
  rw [← Text.bytes_ofList ascii, String.ofList_toList]

theorem isCanonical_ofWords (first second : UInt64) : isCanonical (ofWords first second) := by
  rw [isCanonical_iff, ofWords_eq, String.toList_ofList]
  refine ⟨by simp [digits, numbers], ?_⟩
  simp only [digits, numbers, List.map_cons, List.map_nil, List.intercalate_cons_cons,
    List.intercalate_singleton]
  exact .field (fitFrom_fixedHex _ (by decide)) rfl <|
    .field (fitFrom_fixedHex _ (by decide)) rfl <|
    .field (fitFrom_version first) rfl <|
    .field (fitFrom_variant second) rfl <|
    fitFrom_fixedHex _ (by decide)

/-! ## Texts of random words -/

/-- The text made of any two words is a version 4 UUID in canonical form, of thirty-six
bytes, with hyphens at their four positions only. Two draws have the same text if and only
if they agree on the one hundred and twenty-two bits that are not replaced. -/
theorem ofWords_keeps_random_bits (first second : UInt64) :
    let text := ofWords first second
    isCanonical text ∧ (Text.bytes text).length = 36 ∧
      Text.bytes text = text.toList.map Text.byteOf ∧
      (∀ position, text.toList[position]? = some '-' ↔ position ∈ [8, 13, 18, 23]) ∧
      (otherBits versionBits).length + (otherBits variantBits).length = 122 ∧
      ∀ first' second',
        ofWords first second = ofWords first' second' ↔
          (∀ bit ∈ otherBits versionBits, first.toNat.testBit bit = first'.toNat.testBit bit) ∧
            ∀ bit ∈ otherBits variantBits,
              second.toNat.testBit bit = second'.toNat.testBit bit := by
  intro text
  have canonical : isCanonical text := isCanonical_ofWords first second
  have bytes := bytes_of_isCanonical canonical
  refine ⟨canonical, ?_, bytes, fun _ => getElem?_eq_hyphen_iff canonical, by decide, ?_⟩
  · rw [bytes, List.length_map]
    exact (isCanonical_iff.mp canonical).1
  · intro first' second'
    rw [ofWords_eq_iff]
    exact and_congr replaces_version.eq_iff replaces_variant.eq_iff

/-- The example of a version 4 UUID: replacing version and variant leaves it as it is. -/
example : ofWords 0x3f2b8c1e9d4a4f6b 0x8a2e5c7d9e0f1a2b = "3f2b8c1e-9d4a-4f6b-8a2e-5c7d9e0f1a2b" := by
  decide +kernel

end AgentKit.Uuid
