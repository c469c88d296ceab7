/-
# The pieces between separators

Cut at a character, a text falls into pieces in one way only: they are the texts without that
character that give the whole when joined with it. There is one piece more than there are
separators, so a separator at an end of the text, or next to another, has an empty piece
beside it, and the empty text is one empty piece.

The pieces can be read in rounds that hand on a position. A round looks for the next
separator from its position on, takes what lies before it, and hands on the position behind
it. That may be the end of the text, where one more round finds an empty piece, but it is
never beyond: the rounds come to an end with the last piece, one for each.
-/

import Mathlib.Data.List.Basic

namespace AgentKit.Text

variable {separator : Char} {text piece more : List Char} {pieces : List (List Char)}

/-- The pieces of a text between its separators. -/
structure IsSplit (separator : Char) (text : List Char) (pieces : List (List Char)) : Prop where
  ne_nil : pieces ≠ []
  free : ∀ piece ∈ pieces, separator ∉ piece
  joined : [separator].intercalate pieces = text

theorem intercalate_cons (separator : Char) (piece : List Char) (several : pieces ≠ []) :
    [separator].intercalate (piece :: pieces) =
      piece ++ separator :: [separator].intercalate pieces := by
  rw [List.intercalate_cons_of_ne_nil several, List.append_assoc, List.singleton_append]

namespace IsSplit

theorem singleton_iff : IsSplit separator text [piece] ↔ piece = text ∧ separator ∉ text := by
  constructor
  · rintro ⟨-, free, rfl⟩
    rw [List.intercalate_singleton]
    exact ⟨rfl, free piece List.mem_cons_self⟩
  · rintro ⟨rfl, free⟩
    exact ⟨List.cons_ne_nil _ _, List.forall_mem_singleton.mpr free, List.intercalate_singleton⟩

/-- The first of several pieces ends where the first separator stands. -/
theorem cons_iff (several : pieces ≠ []) :
    IsSplit separator text (piece :: pieces) ↔
      separator ∉ piece ∧ ∃ more, text = piece ++ separator :: more ∧
        IsSplit separator more pieces := by
  constructor
  · rintro ⟨-, free, rfl⟩
    obtain ⟨here, later⟩ := List.forall_mem_cons.mp free
    exact ⟨here, _, intercalate_cons separator piece several, several, later, rfl⟩
  · rintro ⟨here, more, rfl, -, later, rfl⟩
    exact ⟨List.cons_ne_nil _ _, List.forall_mem_cons.mpr ⟨here, later⟩,
      intercalate_cons separator piece several⟩

/-- The pieces are gone through from the first one, each with the text from it on. -/
@[elab_as_elim]
theorem rec_pieces
    {motive : (text : List Char) → (pieces : List (List Char)) →
      IsSplit separator text pieces → Prop}
    (last : ∀ {text} (free : separator ∉ text),
      motive text [text] (singleton_iff.mpr ⟨rfl, free⟩))
    (next : ∀ {piece more pieces} (free : separator ∉ piece)
      (rest : IsSplit separator more pieces), motive more pieces rest →
      motive (piece ++ separator :: more) (piece :: pieces)
        ((cons_iff rest.ne_nil).mpr ⟨free, more, rfl, rest⟩))
    (split : IsSplit separator text pieces) : motive text pieces split := by
  induction pieces generalizing text with
  | nil => exact absurd rfl split.ne_nil
  | cons piece pieces ih =>
      by_cases several : pieces = []
      · subst several
        obtain ⟨rfl, free⟩ := singleton_iff.mp split
        exact last free
      · obtain ⟨free, more, rfl, rest⟩ := (cons_iff several).mp split
        exact next free rest (ih rest)

theorem eq_splitOn (split : IsSplit separator text pieces) : pieces = text.splitOn separator := by
  rw [← split.joined, List.splitOn_intercalate separator split.free split.ne_nil]

theorem length_eq (split : IsSplit separator text pieces) :
    pieces.length = text.count separator + 1 := by
  induction split using rec_pieces with
  | last free => rw [List.count_eq_zero.mpr free, List.length_singleton]
  | next free rest ih =>
      rw [List.count_append, List.count_eq_zero.mpr free, List.count_cons_self,
        List.length_cons, ih, Nat.zero_add]

end IsSplit

theorem exists_isSplit (separator : Char) (text : List Char) :
    ∃ pieces, IsSplit separator text pieces := by
  induction text with
  | nil => exact ⟨[[]], IsSplit.singleton_iff.mpr ⟨rfl, List.not_mem_nil⟩⟩
  | cons c rest ih =>
      obtain ⟨pieces, split⟩ := ih
      by_cases same : c = separator
      · subst same
        exact ⟨[] :: pieces, (IsSplit.cons_iff split.ne_nil).mpr
          ⟨List.not_mem_nil, rest, rfl, split⟩⟩
      · -- The character belongs to the first piece of the rest.
        have joins : ∀ {piece}, separator ∉ piece → separator ∉ c :: piece := by
          intro piece free
          exact List.not_mem_cons_of_ne_of_not_mem (Ne.symm same) free
        induction split using IsSplit.rec_pieces with
        | last free => exact ⟨_, IsSplit.singleton_iff.mpr ⟨rfl, joins free⟩⟩
        | next free later _ =>
            exact ⟨_, (IsSplit.cons_iff later.ne_nil).mpr ⟨joins free, _, rfl, later⟩⟩

/-- The pieces are what the library's `splitOn` gives. -/
theorem isSplit_splitOn (separator : Char) (text : List Char) :
    IsSplit separator text (text.splitOn separator) := by
  obtain ⟨pieces, split⟩ := exists_isSplit separator text
  exact split.eq_splitOn ▸ split

/-! ## Rounds -/

/-- One round, from a position on: the piece before the next separator, and the position
behind it. Where no separator is left, all of the rest is the piece. -/
def pieceAt (separator : Char) (text : List Char) (start : Nat) : List Char × Option Nat :=
  match (text.drop start).findIdx? (· = separator) with
  | some length => ((text.drop start).take length, some (start + length + 1))
  | none => (text.drop start, none)

variable {start : Nat}

theorem pieceAt_of_not_mem (free : separator ∉ text.drop start) :
    pieceAt separator text start = (text.drop start, none) := by
  have nowhere : (text.drop start).findIdx? (· = separator) = none := by
    rw [List.findIdx?_eq_none_iff]
    intro c inside
    simpa using ne_of_mem_of_not_mem inside free
  rw [pieceAt, nowhere]

theorem pieceAt_of_append (rest : text.drop start = piece ++ separator :: more)
    (free : separator ∉ piece) :
    pieceAt separator text start = (piece, some (start + piece.length + 1)) := by
  have found : (text.drop start).findIdx? (· = separator) = some piece.length := by
    have before : piece.findIdx? (· = separator) = none := by
      rw [List.findIdx?_eq_none_iff]
      intro c inside
      simpa using ne_of_mem_of_not_mem inside free
    rw [rest, List.findIdx?_append, before]
    simp [List.findIdx?_cons]
  rw [pieceAt, found, rest]
  simp

/-- The position behind a separator is in the text or at its end, and what follows it is the
rest of the text. -/
theorem drop_behind (rest : text.drop start = piece ++ separator :: more) :
    start + piece.length + 1 ≤ text.length ∧ text.drop (start + piece.length + 1) = more := by
  have lengths := congrArg List.length rest
  rw [List.length_drop, List.length_append, List.length_cons] at lengths
  refine ⟨by omega, ?_⟩
  rw [Nat.add_assoc, ← List.drop_drop, rest, ← List.drop_drop, List.drop_left]
  rfl

/-- Reading round by round from a position on ends with these pieces. Every round starts
within the text or at its end. -/
inductive ReadsFrom (separator : Char) (text : List Char) :
    (start : Nat) → (pieces : List (List Char)) → Prop
  | last {start : Nat} {piece : List Char} (inside : start ≤ text.length)
      (round : pieceAt separator text start = (piece, none)) :
      ReadsFrom separator text start [piece]
  | next {start behind : Nat} {piece : List Char} {pieces : List (List Char)}
      (inside : start ≤ text.length)
      (round : pieceAt separator text start = (piece, some behind))
      (rest : ReadsFrom separator text behind pieces) :
      ReadsFrom separator text start (piece :: pieces)

theorem readsFrom_of_isSplit {rest : List Char} (split : IsSplit separator rest pieces)
    (inside : start ≤ text.length) (here : text.drop start = rest) :
    ReadsFrom separator text start pieces := by
  induction split using IsSplit.rec_pieces generalizing start with
  | last free =>
      subst here
      exact .last inside (pieceAt_of_not_mem free)
  | next free later ih =>
      obtain ⟨behind, more⟩ := drop_behind here
      exact .next inside (pieceAt_of_append here free) (ih behind more)

end AgentKit.Text
