/-
# Following a path key by key

A path is followed while it is read, character by character. It leads where its keys lead
when they are looked up one after the other, and these are the pieces of the path between
its dots: an empty one wherever a dot has nothing before or behind it, so that the empty
path has the empty key. Hence a path that goes on after a dot leads on from where its first
part leads.

Following needs no more than one round for each key: it finds where the next dot stands,
looks up what lies before it, and stops where there is no such key, or after the last one.
-/

import AgentKit.Proofs.Text.Pieces
import AgentKit.Settings.Path

namespace AgentKit.Json

open Text

variable {value : Json} {path key front rest : List Char}

/-! ## Keys -/

/-- What is found when keys are looked up one after the other, each in the value found
before. -/
def lookUp (root : Json) (keys : List (List Char)) : Option Json :=
  keys.foldlM (fun value key => value.get? (String.ofList key)) root

theorem follow_of_not_mem (free : '.' ∉ rest) :
    follow value key rest = value.get? (String.ofList (key.reverse ++ rest)) := by
  induction rest generalizing key with
  | nil => rw [follow, List.append_nil]
  | cons c rest ih =>
      have differ : c ≠ '.' := (List.ne_of_not_mem_cons free).symm
      rw [follow, if_neg differ, ih (List.not_mem_of_not_mem_cons free), List.reverse_cons,
        List.append_assoc, List.singleton_append]

/-- What comes after a dot is followed from where the dot has led. -/
theorem follow_append_dot (value : Json) (key front rest : List Char) :
    follow value key (front ++ '.' :: rest) =
      (follow value key front).bind fun inner => follow inner [] rest := by
  induction front generalizing value key with
  | nil =>
      simp only [List.nil_append, follow, ↓reduceIte]
      cases value.get? (String.ofList key.reverse) <;> rfl
  | cons c front ih =>
      rw [List.cons_append, follow, follow]
      by_cases dot : c = '.'
      · rw [if_pos dot, if_pos dot]
        cases value.get? (String.ofList key.reverse) with
        | none => rfl
        | some inner => exact ih inner []
      · rw [if_neg dot, if_neg dot]
        exact ih value (c :: key)

theorem follow_cons_key (free : '.' ∉ key) :
    follow value [] (key ++ '.' :: rest) =
      (value.get? (String.ofList key)).bind fun inner => follow inner [] rest := by
  rw [follow_append_dot, follow_of_not_mem free, List.reverse_nil, List.nil_append]

theorem follow_eq_lookUp {keys : List (List Char)} (split : IsSplit '.' path keys) (root : Json) :
    follow root [] path = lookUp root keys := by
  induction split using IsSplit.rec_pieces generalizing root with
  | last free =>
      rw [follow_of_not_mem free, List.reverse_nil, List.nil_append, lookUp, List.foldlM_cons]
      exact (Option.bind_fun_some _).symm
  | next free later ih =>
      rw [follow_cons_key free, lookUp, List.foldlM_cons]
      exact Option.bind_congr fun inner _ => ih inner

/-! ## Rounds -/

/-- Following a path from a position and a value on ends after so many rounds with this
result. Every round starts within the path or at its end. -/
inductive EndsAfter (path : List Char) :
    (rounds start : Nat) → Json → Option Json → Prop
  | lost {start : Nat} {value : Json} {key : List Char} {behind : Option Nat}
      (inside : start ≤ path.length) (round : pieceAt '.' path start = (key, behind))
      (missing : value.get? (String.ofList key) = none) : EndsAfter path 1 start value none
  | last {start : Nat} {value found : Json} {key : List Char}
      (inside : start ≤ path.length) (round : pieceAt '.' path start = (key, none))
      (here : value.get? (String.ofList key) = some found) :
      EndsAfter path 1 start value (some found)
  | next {rounds start behind : Nat} {value inner : Json} {result : Option Json}
      {key : List Char} (inside : start ≤ path.length)
      (round : pieceAt '.' path start = (key, some behind))
      (here : value.get? (String.ofList key) = some inner)
      (rest : EndsAfter path rounds behind inner result) :
      EndsAfter path (rounds + 1) start value result

/-- There is no need of more rounds than there are keys. -/
theorem exists_endsAfter {start : Nat} {keys : List (List Char)} (split : IsSplit '.' rest keys)
    (inside : start ≤ path.length) (here : path.drop start = rest) (value : Json) :
    ∃ rounds ≤ keys.length, EndsAfter path rounds start value (follow value [] rest) := by
  induction split using IsSplit.rec_pieces generalizing start value with
  | @last rest free =>
      subst here
      have round := pieceAt_of_not_mem free
      rw [follow_of_not_mem free, List.reverse_nil, List.nil_append]
      cases found : value.get? (String.ofList (path.drop start)) with
      | none => exact ⟨1, Nat.le_refl 1, .lost inside round found⟩
      | some inner => exact ⟨1, Nat.le_refl 1, .last inside round found⟩
  | @next key more keys free later ih =>
      have round := pieceAt_of_append here free
      obtain ⟨behind, remaining⟩ := drop_behind here
      rw [follow_cons_key free, List.length_cons]
      cases found : value.get? (String.ofList key) with
      | none => exact ⟨1, by omega, .lost inside round found⟩
      | some inner =>
          obtain ⟨rounds, few, ends⟩ := ih behind remaining inner
          exact ⟨rounds + 1, by omega, .next inside round found ends⟩

/-- A path leads where its keys, the pieces between its dots, lead one after the other, and
nowhere as soon as a value is no object or lacks the key. A path that goes on after a dot
leads on from where its first part leads, and nowhere if that does. Following it ends after at
most one round for each key. -/
theorem paths_lead_key_by_key (root : Json) (path : String) :
    (∃ keys, IsSplit '.' path.toList keys ∧ root.atPath? path = root.lookUp keys ∧
      ∃ rounds ≤ keys.length, EndsAfter path.toList rounds 0 root (root.atPath? path)) ∧
    ∀ more : String, root.atPath? (path ++ "." ++ more) =
      (root.atPath? path).bind fun value => value.atPath? more := by
  constructor
  · have split := isSplit_splitOn '.' path.toList
    exact ⟨_, split, follow_eq_lookUp split root,
      exists_endsAfter split (Nat.zero_le _) rfl root⟩
  · intro more
    have joined : (path ++ "." ++ more).toList = path.toList ++ '.' :: more.toList := by
      simp
    rw [atPath?, joined]
    exact follow_append_dot root [] path.toList more.toList

example : (obj [("", .int 1), ("a", obj [("", .int 2)])]).atPath? "a." = some (.int 2) := rfl

end AgentKit.Json
