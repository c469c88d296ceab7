/-
# Lists in one text

A list is read from one text: its items are the pieces between the commas without the white
space around them. Every comma ends an item, so an empty item stands wherever there is
nothing but white space between two commas or beside one, and the empty text has one empty
item. Nothing is lost and nothing made up by this: whatever items without commas and without
white space at their ends are written with commas in between, and with whatever white space
around them, the same items are read.

White space is six ASCII characters. As all of them and the comma are ASCII, it makes no
difference whether what is beyond ASCII comes as bytes or as characters.
-/

import Mathlib.Data.List.Forall2
import AgentKit.Proofs.Text.Pieces
import AgentKit.Text.Ascii

namespace AgentKit.Text

/-! ## White space -/

/-- Space, tab, newline, vertical tab, form feed and carriage return. -/
def blanks : List Char :=
  [' ', '\t', '\n', '\x0b', '\x0c', '\r']

/-- White space and nothing else. -/
def IsBlankText (cs : List Char) : Prop :=
  ∀ c ∈ cs, c ∈ blanks

/-- No white space at either end. -/
structure IsBare (core : List Char) : Prop where
  head : ∀ c ∈ core.head?, c ∉ blanks
  last : ∀ c ∈ core.getLast?, c ∉ blanks

/-- What remains of a text without the white space around it. -/
structure IsCore (core cs : List Char) : Prop extends IsBare core where
  padded : ∃ before after, IsBlankText before ∧ IsBlankText after ∧ cs = before ++ core ++ after

theorem isBlank_iff {c : Char} : isBlank c ↔ c ∈ blanks := by
  constructor
  · intro blank
    rcases Bool.or_eq_true_iff.mp blank with space | control
    · rw [of_decide_eq_true space]
      exact List.mem_cons_self
    · obtain ⟨above, below⟩ := Bool.and_eq_true_iff.mp control
      have low : 9 ≤ c.toNat := UInt32.le_iff_toNat_le.mp (of_decide_eq_true above)
      have high : c.toNat ≤ 13 := UInt32.le_iff_toNat_le.mp (of_decide_eq_true below)
      have numbers : c.toNat = 9 ∨ c.toNat = 10 ∨ c.toNat = 11 ∨ c.toNat = 12 ∨ c.toNat = 13 := by
        omega
      rw [← Char.ofNat_toNat c]
      rcases numbers with number | number | number | number | number <;> rw [number] <;> decide
  · exact List.all_eq_true.mp (rfl : blanks.all isBlank = true) c

variable {before core after cs : List Char}

theorem not_mem_of_isBlankText (blank : IsBlankText cs) : ',' ∉ cs := by
  intro inside
  exact absurd (blank ',' inside) (by decide)

theorem IsCore.not_mem {c : Char} (isCore : IsCore core cs) (free : c ∉ cs) : c ∉ core := by
  obtain ⟨before, after, -, -, rfl⟩ := isCore.padded
  exact fun inside => free (List.mem_append_left _ (List.mem_append_right _ inside))

theorem isBlankText_takeWhile (cs : List Char) : IsBlankText (cs.takeWhile isBlank) :=
  fun c inside => isBlank_iff.mp (List.all_eq_true.mp List.all_takeWhile c inside)

theorem not_mem_blanks_of_head?_dropWhile {c : Char} (first : c ∈ (cs.dropWhile isBlank).head?) :
    c ∉ blanks := by
  have stopped := List.head?_dropWhile_not isBlank cs
  rw [first] at stopped
  rw [← isBlank_iff, stopped]
  exact Bool.false_ne_true

/-- White space before a bare text is dropped, and nothing of the text. -/
theorem dropWhile_append_bare (blank : IsBlankText before) (first : ∀ c ∈ core.head?, c ∉ blanks) :
    (before ++ core).dropWhile isBlank = core := by
  have front : ∀ c ∈ before, isBlank c := fun c inside => isBlank_iff.mpr (blank c inside)
  rw [List.dropWhile_append_of_pos front]
  cases core with
  | nil => rfl
  | cons c rest =>
      have stop : ¬ isBlank c := fun blank => first c rfl (isBlank_iff.mp blank)
      rw [List.dropWhile_cons_of_neg stop]

theorem trimChars_of_isCore (isCore : IsCore core cs) : trimChars cs = core := by
  obtain ⟨before, after, blankBefore, blankAfter, rfl⟩ := isCore.padded
  by_cases empty : core = []
  · subst empty
    have all : IsBlankText (before ++ [] ++ after) := by
      rw [List.append_nil]
      exact List.forall_mem_append.mpr ⟨blankBefore, blankAfter⟩
    have nothing : (before ++ [] ++ after ++ []).dropWhile isBlank = [] :=
      dropWhile_append_bare all nofun
    rw [List.append_nil] at nothing
    rw [trimChars, nothing]
    rfl
  · have head : ∀ c ∈ (core ++ after).head?, c ∉ blanks := by
      rw [List.head?_append_of_ne_nil core empty]
      exact isCore.head
    have blankReverse : IsBlankText after.reverse :=
      fun c inside => blankAfter c (List.mem_reverse.mp inside)
    have last : ∀ c ∈ core.reverse.head?, c ∉ blanks := by
      rw [List.head?_reverse]
      exact isCore.last
    rw [trimChars, List.append_assoc, dropWhile_append_bare blankBefore head, List.reverse_append,
      dropWhile_append_bare blankReverse last, List.reverse_reverse]

/-- What is trimmed is white space, and what remains has none at its ends. -/
theorem isCore_trimChars (cs : List Char) : IsCore (trimChars cs) cs := by
  have front : cs.takeWhile isBlank ++ cs.dropWhile isBlank = cs := List.takeWhile_append_dropWhile
  have back : trimChars cs ++ ((cs.dropWhile isBlank).reverse.takeWhile isBlank).reverse =
      cs.dropWhile isBlank := by
    rw [trimChars, ← List.reverse_append, List.takeWhile_append_dropWhile, List.reverse_reverse]
  have blankBack : IsBlankText ((cs.dropWhile isBlank).reverse.takeWhile isBlank).reverse :=
    fun c inside => isBlankText_takeWhile _ c (List.mem_reverse.mp inside)
  exact {
    head := by
      intro c first
      have kept : c ∈ (cs.dropWhile isBlank).head? := by
        rw [← back, List.head?_append, first]
        rfl
      exact not_mem_blanks_of_head?_dropWhile kept
    last := by
      intro c last
      rw [trimChars, List.getLast?_reverse] at last
      exact not_mem_blanks_of_head?_dropWhile last
    padded := ⟨_, _, isBlankText_takeWhile cs, blankBack, by rw [List.append_assoc, back, front]⟩ }

/-! ## Items -/

/-- An item without commas and without white space at its ends, and white space around it. -/
structure PaddedItem where
  before : String
  item : String
  after : String
  blank_before : IsBlankText before.toList
  blank_after : IsBlankText after.toList
  free : ',' ∉ item.toList
  bare : IsBare item.toList

/-- The item with the white space around it. -/
def PaddedItem.text (padded : PaddedItem) : String :=
  padded.before ++ padded.item ++ padded.after

theorem PaddedItem.toList_text (padded : PaddedItem) :
    padded.text.toList = padded.before.toList ++ padded.item.toList ++ padded.after.toList := by
  rw [text, String.toList_append, String.toList_append]

theorem PaddedItem.isCore (padded : PaddedItem) :
    IsCore padded.item.toList padded.text.toList :=
  ⟨padded.bare, _, _, padded.blank_before, padded.blank_after, padded.toList_text⟩

theorem PaddedItem.not_mem_text (padded : PaddedItem) : ',' ∉ padded.text.toList := by
  rw [toList_text, List.mem_append, List.mem_append, not_or, not_or]
  exact ⟨⟨not_mem_of_isBlankText padded.blank_before, padded.free⟩,
    not_mem_of_isBlankText padded.blank_after⟩

theorem commaItems_eq {text : String} {pieces : List (List Char)}
    (split : IsSplit ',' text.toList pieces) :
    commaItems text = pieces.map fun piece => String.ofList (trimChars piece) := by
  rw [commaItems, ← split.eq_splitOn]

/-- Items that are joined with commas, in whatever white space, are read again. -/
theorem commaItems_intercalate {items : List PaddedItem} (present : items ≠ []) :
    commaItems (",".intercalate (items.map PaddedItem.text)) = items.map PaddedItem.item := by
  have split : IsSplit ',' (",".intercalate (items.map PaddedItem.text)).toList
      (items.map fun padded => padded.text.toList) := by
    refine ⟨?_, ?_, ?_⟩
    · simpa using present
    · simpa using fun padded _ => padded.not_mem_text
    · rw [String.toList_intercalate, List.map_map]
      rfl
  rw [commaItems_eq split, List.map_map]
  apply List.map_congr_left
  intro padded _
  rw [Function.comp_apply, trimChars_of_isCore padded.isCore, String.ofList_toList]

/-- A text has one item more than commas, and the items are the pieces between them, in order
and without the white space around them. They are found in rounds, one for each. Items
that are joined with commas, in whatever white space, are read again. -/
theorem comma_lists_are_read_back :
    (∀ text : String, ∃ pieces : List (List Char),
      IsSplit ',' text.toList pieces ∧ ReadsFrom ',' text.toList 0 pieces ∧
      List.Forall₂ (fun piece item => IsCore item.toList piece) pieces (commaItems text) ∧
      (commaItems text).length = text.toList.count ',' + 1 ∧
      ∀ item ∈ commaItems text, ',' ∉ item.toList ∧ IsBare item.toList) ∧
    ∀ (first : PaddedItem) (others : List PaddedItem),
      commaItems (",".intercalate ((first :: others).map PaddedItem.text)) =
        (first :: others).map PaddedItem.item := by
  constructor
  · intro text
    have split := isSplit_splitOn ',' text.toList
    have items := commaItems_eq split
    refine ⟨_, split, readsFrom_of_isSplit split (Nat.zero_le _) rfl, ?_, ?_, ?_⟩
    · rw [items, List.forall₂_map_right_iff, List.forall₂_same]
      intro piece _
      rw [String.toList_ofList]
      exact isCore_trimChars piece
    · rw [items, List.length_map, split.length_eq]
    · intro item inside
      rw [items] at inside
      obtain ⟨piece, listed, rfl⟩ := List.mem_map.mp inside
      have isCore := isCore_trimChars piece
      rw [String.toList_ofList]
      exact ⟨isCore.not_mem (split.free piece listed), isCore.toIsBare⟩
  · intro first others
    exact commaItems_intercalate (List.cons_ne_nil first others)

example : commaItems "\t,, a b ,c\n" = ["", "", "a b", "c"] := by decide

end AgentKit.Text
