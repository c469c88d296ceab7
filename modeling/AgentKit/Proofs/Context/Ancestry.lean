/-
# Where contexts come from

Two handles are copies of each other if copying relates them, in whichever
direction and in however many steps. A handle governs another if the other is
reached from it by deriving, and by passing to copies, any number of times. Both are
read off the way the handles were obtained.

The contexts themselves have no handles. What ties them to the history is that every
new context has a number above all earlier ones: handles are copies exactly if their
contexts have one number, and what a handle governs are the handles with its
context in their lineage. So ancestry is never circular.
-/

import Mathlib.Logic.Relation
import AgentKit.Context.History

namespace AgentKit

namespace ContextHistory

variable {history later : ContextHistory} {place upper lower : Nat} {handle : Handle}
  {context : Context}

/-- A handle was obtained by copying another. -/
def IsCopyOf (history : ContextHistory) (copy source : Nat) : Prop :=
  ∃ handle, history.handles[copy]? = some handle ∧ handle.origin = .copy source

/-- The context of a handle was derived by means of another. -/
def IsDerivedFrom (history : ContextHistory) (child parent : Nat) : Prop :=
  ∃ handle derivation, history.handles[child]? = some handle ∧
    handle.origin = .derived parent derivation

/-- Handles that are related by copying. -/
def AreCopies (history : ContextHistory) : Nat → Nat → Prop :=
  Relation.EqvGen history.IsCopyOf

/-- Handles of which the second comes from the first, or from a copy of it, by any
number of derivations. -/
def Governs (history : ContextHistory) : Nat → Nat → Prop :=
  Relation.ReflTransGen fun upper lower =>
    history.AreCopies upper lower ∨ history.IsDerivedFrom lower upper

/-! ## What histories keep -/

theorem context?_of_handle (held : history.handles[place]? = some handle) :
    history.context? place = some handle.context := by
  rw [context?, held]
  rfl

theorem exists_handle (held : history.context? place = some context) :
    ∃ handle, history.handles[place]? = some handle ∧ handle.context = context :=
  Option.map_eq_some_iff.mp held

/-- The context of a handle is as the way in which it was obtained wants it. -/
def Accounts (history : ContextHistory) (place : Nat) (handle : Handle) : Prop :=
  match handle.origin with
  | .background => ∃ id, handle.context = ⟨{ id }, []⟩
  | .copy source => source < place ∧ history.context? source = some handle.context
  | .derived parent derivation =>
    parent < place ∧ ∃ id context, history.context? parent = some context ∧
      handle.context = ⟨⟨id, derivation.deadline?, derivation.binding?⟩, context.lineage⟩

/-- The contexts fit the handles, new contexts have had new numbers, and the
cancelled ones are those cancelled by a handle. -/
structure IsSound (history : ContextHistory) : Prop where
  accounts : ∀ (place : Nat) (handle : Handle), history.handles[place]? = some handle →
    history.Accounts place handle
  fresh : ∀ (earlier place : Nat) (before handle : Handle), earlier < place →
    history.handles[earlier]? = some before → history.handles[place]? = some handle →
      ¬ handle.origin.IsCopy → before.context.node.id < handle.context.node.id
  made : ∀ (place : Nat) (handle : Handle), history.handles[place]? = some handle →
    handle.context.node.id < history.contexts.made
  cancelled : history.cancels.map (fun place => (history.context? place).map (·.node.id)) =
    history.contexts.cancelled.map some

namespace IsSound

/-- Only contexts that are held can be cancelled. -/
theorem exists_of_mem_cancels (sound : history.IsSound) (given : place ∈ history.cancels) :
    ∃ context, history.context? place = some context := by
  have known := List.mem_map.mpr
    (⟨place, given, rfl⟩ : ∃ other ∈ history.cancels,
      (history.context? other).map (·.node.id) = (history.context? place).map (·.node.id))
  rw [sound.cancelled] at known
  obtain ⟨id, _, same⟩ := List.mem_map.mp known
  obtain ⟨context, found, _⟩ := Option.map_eq_some_iff.mp same.symm
  exact ⟨context, found⟩

theorem mem_cancelled_iff (sound : history.IsSound) {id : Nat} :
    id ∈ history.contexts.cancelled ↔
      ∃ place ∈ history.cancels, ∃ context,
        history.context? place = some context ∧ context.node.id = id := by
  have mapped : id ∈ history.contexts.cancelled ↔
      some id ∈ history.contexts.cancelled.map some := by
    simp
  rw [mapped, ← sound.cancelled]
  simp only [List.mem_map, Option.map_eq_some_iff]

end IsSound

theorem isSound_empty : IsSound {} where
  accounts place handle held := by simp at held
  fresh earlier place before handle _ held := by simp at held
  made place handle held := by simp at held
  cancelled := rfl

theorem getElem?_concat {first : List Handle} {last : Handle} :
    (first ++ [last])[place]? = some handle ↔
      first[place]? = some handle ∨ place = first.length ∧ last = handle := by
  rcases Nat.lt_trichotomy place first.length with inside | rfl | outside
  · rw [List.getElem?_append_left inside]
    simp [Nat.ne_of_lt inside]
  · simp
  · simp [List.getElem?_append, Nat.lt_asymm outside, Nat.ne_of_gt outside,
      Nat.sub_ne_zero_of_lt outside]

/-- Handles stay where they are. -/
theorem getElem?_of_after? {action : ContextAction} (done : history.after? action = some later)
    (held : history.handles[place]? = some handle) : later.handles[place]? = some handle := by
  cases action with
  | acquire origin =>
      obtain ⟨made, _, rfl⟩ := Option.map_eq_some_iff.mp done
      exact getElem?_concat.mpr (.inl held)
  | cancel other =>
      obtain ⟨context, _, rfl⟩ := Option.map_eq_some_iff.mp done
      exact held

theorem context?_of_after? {action : ContextAction} (done : history.after? action = some later)
    (held : history.context? place = some context) : later.context? place = some context := by
  obtain ⟨handle, found, rfl⟩ := exists_handle held
  exact context?_of_handle (getElem?_of_after? done found)

theorem Accounts.of_after? {action : ContextAction} (accounts : history.Accounts place handle)
    (done : history.after? action = some later) : later.Accounts place handle := by
  obtain ⟨origin, context⟩ := handle
  cases origin with
  | background => exact accounts
  | copy source => exact ⟨accounts.1, context?_of_after? done accounts.2⟩
  | derived parent derivation =>
      obtain ⟨before, id, above, held, made⟩ := accounts
      exact ⟨before, id, above, context?_of_after? done held, made⟩

theorem lt_length_of_context? (held : history.context? place = some context) :
    place < history.handles.length := by
  obtain ⟨handle, found, _⟩ := exists_handle held
  exact (List.getElem?_eq_some_iff.mp found).1

/-- A new handle is accounted for, and a new context has the next number. -/
theorem make?_cases {origin : Origin} {made : Context × Contexts}
    (makes : history.make? origin = some made) :
    history.Accounts history.handles.length ⟨origin, made.1⟩ ∧
      made.2.cancelled = history.contexts.cancelled ∧
      (origin.IsCopy ∧ made.2.made = history.contexts.made ∧
          (∃ source, history.context? source = some made.1) ∨
        ¬ origin.IsCopy ∧ made.2.made = history.contexts.made + 1 ∧
          made.1.node.id = history.contexts.made) := by
  cases origin with
  | background =>
      cases makes
      exact ⟨⟨_, rfl⟩, rfl, .inr ⟨id, rfl, rfl⟩⟩
  | copy source =>
      obtain ⟨context, held, rfl⟩ := Option.map_eq_some_iff.mp makes
      exact ⟨⟨lt_length_of_context? held, held⟩, rfl, .inl ⟨trivial, rfl, source, held⟩⟩
  | derived parent derivation =>
      obtain ⟨context, held, rfl⟩ := Option.map_eq_some_iff.mp makes
      rw [derivation.make_eq]
      exact ⟨⟨lt_length_of_context? held, _, context, held, rfl⟩, rfl, .inr ⟨id, rfl, rfl⟩⟩

theorem IsSound.acquire (sound : history.IsSound) {origin : Origin}
    (done : history.after? (.acquire origin) = some later) : later.IsSound := by
  have accounts : ∀ place handle, history.Accounts place handle → later.Accounts place handle :=
    fun _ _ accounts => accounts.of_after? done
  have held : ∀ place context, history.context? place = some context →
      later.context? place = some context := fun _ _ held => context?_of_after? done held
  obtain ⟨⟨context, contexts⟩, makes, rfl⟩ := Option.map_eq_some_iff.mp done
  obtain ⟨accounted, cancelled, number⟩ := make?_cases makes
  constructor
  case accounts =>
    intro place handle found
    rcases getElem?_concat.mp found with old | ⟨rfl, rfl⟩
    · exact accounts place handle (sound.accounts place handle old)
    · exact accounts _ _ accounted
  case fresh =>
    intro earlier place before handle early foundBefore found original
    rcases getElem?_concat.mp found with old | ⟨rfl, rfl⟩
    · rcases getElem?_concat.mp foundBefore with oldBefore | ⟨rfl, _⟩
      · exact sound.fresh earlier place before handle early oldBefore old original
      · have inside := (List.getElem?_eq_some_iff.mp old).1
        omega
    · rcases getElem?_concat.mp foundBefore with oldBefore | ⟨rfl, _⟩
      · rcases number with ⟨isCopy, _⟩ | ⟨_, _, new⟩
        · exact absurd isCopy original
        · exact new ▸ sound.made earlier before oldBefore
      · omega
  case made =>
    have grown : history.contexts.made ≤ contexts.made := by
      rcases number with ⟨_, same, _⟩ | ⟨_, next, _⟩
      · exact Nat.le_of_eq same.symm
      · exact Nat.le_of_lt (next ▸ Nat.lt_succ_self _)
    intro place handle found
    rcases getElem?_concat.mp found with old | ⟨rfl, rfl⟩
    · exact Nat.lt_of_lt_of_le (sound.made place handle old) grown
    · rcases number with ⟨_, _, source, known⟩ | ⟨_, next, new⟩
      · obtain ⟨original, foundOriginal, rfl⟩ := exists_handle known
        exact Nat.lt_of_lt_of_le (sound.made source original foundOriginal) grown
      · exact next ▸ new ▸ Nat.lt_succ_self _
  case cancelled =>
    rw [cancelled, ← sound.cancelled]
    refine List.map_congr_left fun place given => ?_
    obtain ⟨context, found⟩ := sound.exists_of_mem_cancels given
    rw [found, held place context found]

theorem IsSound.cancel (sound : history.IsSound)
    (done : history.after? (.cancel place) = some later) : later.IsSound := by
  obtain ⟨context, found, rfl⟩ := Option.map_eq_some_iff.mp done
  exact
    { accounts := sound.accounts
      fresh := sound.fresh
      made := sound.made
      cancelled := congrArg₂ List.cons (congrArg (Option.map (·.node.id)) found) sound.cancelled }

theorem IsSound.after? (sound : history.IsSound) {action : ContextAction}
    (done : history.after? action = some later) : later.IsSound := by
  cases action with
  | acquire origin => exact sound.acquire done
  | cancel place => exact sound.cancel done

theorem IsSound.leadsTo (sound : history.IsSound) (onwards : history.LeadsTo later) :
    later.IsSound := by
  induction onwards with
  | refl => exact sound
  | next _ action done ih => exact ih.after? done

theorem IsPossible.isSound (possible : history.IsPossible) : history.IsSound :=
  isSound_empty.leadsTo possible

theorem LeadsTo.context? (onwards : history.LeadsTo later)
    (held : history.context? place = some context) : later.context? place = some context := by
  induction onwards with
  | refl => exact held
  | next _ action done ih => exact context?_of_after? done ih

/-! ## Handles and lineages -/

namespace IsSound

theorem context?_of_areCopies (sound : history.IsSound) (copies : history.AreCopies upper lower) :
    history.context? upper = history.context? lower := by
  induction copies with
  | rel copy source step =>
      obtain ⟨⟨_, context⟩, held, rfl⟩ := step
      rw [context?_of_handle held]
      exact (sound.accounts copy _ held).2.symm
  | refl => rfl
  | symm _ _ _ ih => exact ih.symm
  | trans _ _ _ _ _ first second => exact first.trans second

/-- Every handle is a copy of one with a context of its own. -/
theorem exists_original (sound : history.IsSound) {handle : Handle}
    (held : history.handles[place]? = some handle) :
    ∃ original first, history.AreCopies original place ∧
      history.handles[original]? = some first ∧ ¬ first.origin.IsCopy ∧
      first.context = handle.context := by
  induction place using Nat.strongRecOn generalizing handle with
  | ind place ih =>
      obtain ⟨origin, context⟩ := handle
      cases origin with
      | background => exact ⟨place, _, .refl place, held, id, rfl⟩
      | derived parent derivation => exact ⟨place, _, .refl place, held, id, rfl⟩
      | copy source =>
          obtain ⟨before, known⟩ := sound.accounts place _ held
          obtain ⟨other, found, same⟩ := exists_handle known
          obtain ⟨original, first, copies, foundFirst, own, same'⟩ := ih source before found
          refine ⟨original, first, .trans _ source _ copies ?_, foundFirst, own, same'.trans same⟩
          exact .symm _ _ (.rel _ _ ⟨_, held, rfl⟩)

/-- Two handles that have contexts of their own do not share a number. -/
theorem eq_of_original (sound : history.IsSound) {first second : Handle}
    (foundUpper : history.handles[upper]? = some first)
    (foundLower : history.handles[lower]? = some second)
    (ownFirst : ¬ first.origin.IsCopy) (ownSecond : ¬ second.origin.IsCopy)
    (same : first.context.node.id = second.context.node.id) : upper = lower := by
  rcases Nat.lt_trichotomy upper lower with before | here | after
  · have rising := sound.fresh upper lower first second before foundUpper foundLower ownSecond
    omega
  · exact here
  · have rising := sound.fresh lower upper second first after foundLower foundUpper ownFirst
    omega

theorem areCopies_of_id_eq (sound : history.IsSound) {first second : Context}
    (heldUpper : history.context? upper = some first)
    (heldLower : history.context? lower = some second) (same : first.node.id = second.node.id) :
    history.AreCopies upper lower := by
  obtain ⟨one, found, rfl⟩ := exists_handle heldUpper
  obtain ⟨two, found', rfl⟩ := exists_handle heldLower
  obtain ⟨original, head, copies, there, own, sameContext⟩ := sound.exists_original found
  obtain ⟨original', head', copies', there', own', sameContext'⟩ := sound.exists_original found'
  obtain rfl : original = original' :=
    sound.eq_of_original there there' own own' (by rw [sameContext, sameContext', same])
  exact .trans _ original _ (.symm _ _ copies) copies'

/-- The lineage of a handle is that of its parent with one more context in front. -/
theorem lineage_of_isDerivedFrom (sound : history.IsSound) {child parent : Nat}
    (derived : history.IsDerivedFrom child parent) :
    ∃ own above, history.context? child = some own ∧ history.context? parent = some above ∧
      own.lineage = own.node :: above.lineage := by
  obtain ⟨⟨_, own⟩, derivation, held, rfl⟩ := derived
  obtain ⟨_, _, above, known, rfl⟩ := sound.accounts child _ held
  exact ⟨_, above, context?_of_handle held, known, rfl⟩

/-- What governs a handle has its lineage at the end of that of the handle. -/
theorem lineage_suffix (sound : history.IsSound) (governs : history.Governs upper lower)
    {context : Context} (held : history.context? lower = some context) :
    ∃ above, history.context? upper = some above ∧ above.lineage <:+ context.lineage := by
  induction governs generalizing context with
  | refl => exact ⟨context, held, List.suffix_rfl⟩
  | tail _ step ih =>
      rcases step with copies | derived
      · exact ih ((sound.context?_of_areCopies copies).trans held)
      · obtain ⟨own, parent, heldOwn, heldParent, lineage⟩ := sound.lineage_of_isDerivedFrom derived
        obtain rfl : own = context := Option.some.inj (heldOwn.symm.trans held)
        obtain ⟨above, heldAbove, suffix⟩ := ih heldParent
        exact ⟨above, heldAbove, suffix.trans (lineage ▸ List.suffix_cons _ _)⟩

/-- Whoever stands in the lineage of a handle has a handle of its own that governs it. -/
theorem exists_governs_of_mem_lineage (sound : history.IsSound) {handle : Handle}
    (held : history.handles[place]? = some handle) {node : ContextNode}
    (mem : node ∈ handle.context.lineage) :
    ∃ upper above, history.Governs upper place ∧ history.handles[upper]? = some above ∧
      ¬ above.origin.IsCopy ∧ above.context.node = node := by
  induction place using Nat.strongRecOn generalizing handle with
  | ind place ih =>
      obtain ⟨origin, context⟩ := handle
      cases origin with
      | background =>
          obtain ⟨_, rfl⟩ := sound.accounts place _ held
          exact ⟨place, _, .refl, held, id, (List.mem_singleton.mp mem).symm⟩
      | copy source =>
          obtain ⟨before, known⟩ := sound.accounts place _ held
          obtain ⟨other, found, same⟩ := exists_handle known
          obtain ⟨upper, above, governs, rest⟩ := ih source before found (same ▸ mem)
          refine ⟨upper, above, governs.tail (.inl ?_), rest⟩
          exact .symm _ _ (.rel _ _ ⟨_, held, rfl⟩)
      | derived parent derivation =>
          obtain ⟨before, _, _, known, rfl⟩ := sound.accounts place _ held
          rcases List.mem_cons.mp mem with rfl | older
          · exact ⟨place, _, .refl, held, id, rfl⟩
          · obtain ⟨other, found, rfl⟩ := exists_handle known
            obtain ⟨upper, above, governs, rest⟩ := ih parent before found older
            exact ⟨upper, above, governs.tail (.inr ⟨_, derivation, held, rfl⟩), rest⟩

/-- A handle governs those that have the number of its context in their lineage. -/
theorem governs_iff (sound : history.IsSound) {above context : Context}
    (heldUpper : history.context? upper = some above)
    (heldLower : history.context? lower = some context) :
    history.Governs upper lower ↔ ∃ node ∈ context.lineage, node.id = above.node.id := by
  constructor
  · intro governs
    obtain ⟨other, heldOther, suffix⟩ := sound.lineage_suffix governs heldLower
    obtain rfl : other = above := Option.some.inj (heldOther.symm.trans heldUpper)
    exact ⟨other.node, suffix.mem List.mem_cons_self, rfl⟩
  · rintro ⟨node, mem, same⟩
    obtain ⟨handle, found, rfl⟩ := exists_handle heldLower
    obtain ⟨middle, other, governs, foundOther, _, rfl⟩ :=
      sound.exists_governs_of_mem_lineage found mem
    have copies := sound.areCopies_of_id_eq heldUpper (context?_of_handle foundOther) same.symm
    exact .head (.inl copies) governs

/-- Ancestry is not circular: handles that govern each other are copies. -/
theorem areCopies_of_governs (sound : history.IsSound) (down : history.Governs upper lower)
    (up : history.Governs lower upper) (held : history.context? upper = some context) :
    history.AreCopies upper lower := by
  obtain ⟨other, heldOther, suffix⟩ := sound.lineage_suffix up held
  obtain ⟨again, heldAgain, suffix'⟩ := sound.lineage_suffix down heldOther
  obtain rfl : again = context := Option.some.inj (heldAgain.symm.trans held)
  have lineage : again.lineage = other.lineage :=
    suffix'.eq_of_length (Nat.le_antisymm suffix'.length_le suffix.length_le)
  exact sound.areCopies_of_id_eq held heldOther (congrArg ContextNode.id (List.cons.inj lineage).1)

/-- Of two handles that were derived separately from one context neither governs the
other. -/
theorem not_governs_sibling (sound : history.IsSound) {left right parent other : Nat}
    (derivedLeft : history.IsDerivedFrom left parent)
    (derivedRight : history.IsDerivedFrom right other)
    (copies : history.AreCopies parent other) (apart : left ≠ right) :
    ¬ history.Governs left right := by
  intro governs
  obtain ⟨one, first, heldLeft, heldParent, lineageLeft⟩ :=
    sound.lineage_of_isDerivedFrom derivedLeft
  obtain ⟨two, second, heldRight, heldOther, lineageRight⟩ :=
    sound.lineage_of_isDerivedFrom derivedRight
  obtain rfl : first = second :=
    Option.some.inj (heldParent.symm.trans ((sound.context?_of_areCopies copies).trans heldOther))
  obtain ⟨again, heldAgain, suffix⟩ := sound.lineage_suffix governs heldRight
  obtain rfl : again = one := Option.some.inj (heldAgain.symm.trans heldLeft)
  rw [lineageLeft, lineageRight, List.suffix_cons_iff] at suffix
  rcases suffix with same | inside
  · obtain ⟨⟨_, _⟩, _, foundLeft, rfl⟩ := derivedLeft
    obtain ⟨⟨_, _⟩, _, foundRight, rfl⟩ := derivedRight
    refine apart (sound.eq_of_original foundLeft foundRight id id ?_)
    rw [context?_of_handle foundLeft] at heldLeft
    rw [context?_of_handle foundRight] at heldRight
    cases heldLeft
    cases heldRight
    exact congrArg ContextNode.id (List.cons.inj same).1
  · have longer := inside.length_le
    rw [List.length_cons] at longer
    omega

end IsSound

end ContextHistory

end AgentKit
