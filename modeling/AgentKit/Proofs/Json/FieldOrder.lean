/-
# Fields in order

Fields stand in the order of their keys, so that no key comes twice. Storing a value and
laying one list over another keep this, whatever the other list is. Fields in order are
known by what is found under each key: two lists of them in which every key leads to the
same are one list, so nothing else can be told from the way in which they came about.
-/

import Mathlib.Data.List.Nodup
import AgentKit.Json.Fields

namespace AgentKit.Fields

variable {α : Type} {key : String} {value : α} {fields other : List (String × α)}

/-! ## Looking up -/

theorem find?_eq_none_iff : find? key fields = none ↔ ∀ field ∈ fields, field.1 ≠ key := by
  induction fields with
  | nil => simp [find?]
  | cons field rest ih =>
      obtain ⟨name, first⟩ := field
      by_cases same : name = key
      · simp [find?, same]
      · simp [find?, same, ih]

/-- A list in which nothing is found is empty. -/
theorem eq_nil_of_find? (nowhere : ∀ key, find? key fields = none) : fields = [] := by
  cases fields with
  | nil => rfl
  | cons field rest => exact absurd rfl (find?_eq_none_iff.mp (nowhere field.1) _ List.mem_cons_self)

theorem mem_of_find? (found : find? key fields = some value) : (key, value) ∈ fields := by
  induction fields with
  | nil => cases found
  | cons field rest ih =>
      obtain ⟨name, first⟩ := field
      by_cases same : name = key
      · rw [find?, if_pos same] at found
        cases found
        rw [same]
        exact List.mem_cons_self
      · rw [find?, if_neg same] at found
        exact List.mem_cons_of_mem _ (ih found)

/-- Where no key comes twice, the fields of a list are what is found in it. -/
theorem find?_eq_some_iff (distinct : (fields.map Prod.fst).Nodup) :
    find? key fields = some value ↔ (key, value) ∈ fields := by
  refine ⟨mem_of_find?, fun listed => ?_⟩
  cases found : find? key fields with
  | none => exact absurd rfl (find?_eq_none_iff.mp found _ listed)
  | some first =>
      have once := List.inj_on_of_nodup_map distinct (mem_of_find? found) listed rfl
      cases once
      rfl

/-- Where no key comes twice, the order of the fields makes no difference. -/
theorem find?_of_perm (distinct : (fields.map Prod.fst).Nodup) (perm : other.Perm fields)
    (key : String) : find? key other = find? key fields := by
  have distinct' : (other.map Prod.fst).Nodup := (perm.map Prod.fst).nodup_iff.mpr distinct
  apply Option.ext
  intro value
  rw [find?_eq_some_iff distinct, find?_eq_some_iff distinct', perm.mem_iff]

theorem find?_append (key : String) (fields other : List (String × α)) :
    find? key (fields ++ other) = (find? key fields).or (find? key other) := by
  induction fields with
  | nil => rfl
  | cons field rest ih =>
      obtain ⟨name, first⟩ := field
      by_cases same : name = key
      · simp [find?, same]
      · simp [find?, same, ih]

/-- Lists laid over one after the other are laid over as one, the later one first. -/
theorem merge_append (fields more upper : List (String × α)) :
    merge fields (more ++ upper) = merge (merge fields upper) more :=
  List.foldr_append

/-! ## Order -/

/-- The keys rise from field to field. -/
def IsOrdered (fields : List (String × α)) : Prop :=
  fields.Pairwise fun field later => field.1 < later.1

instance (fields : List (String × α)) : Decidable (IsOrdered fields) :=
  inferInstanceAs (Decidable (fields.Pairwise _))

@[simp]
theorem isOrdered_nil : IsOrdered ([] : List (String × α)) :=
  List.Pairwise.nil

theorem isOrdered_cons_iff {field : String × α} :
    IsOrdered (field :: fields) ↔ (∀ later ∈ fields, field.1 < later.1) ∧ IsOrdered fields :=
  List.pairwise_cons

/-- Nothing but the stored field comes in. -/
theorem mem_of_mem_insert {field : String × α} (inside : field ∈ insert key value fields) :
    field = (key, value) ∨ field ∈ fields := by
  induction fields with
  | nil => exact .inl (List.mem_singleton.mp inside)
  | cons first rest ih =>
      obtain ⟨name, old⟩ := first
      by_cases same : name = key
      · rw [insert, if_pos same] at inside
        exact (List.mem_cons.mp inside).imp_right (List.mem_cons_of_mem _)
      · by_cases before : name < key
        · rw [insert, if_neg same, if_pos before] at inside
          rcases List.mem_cons.mp inside with here | later
          · exact .inr (here ▸ List.mem_cons_self)
          · exact (ih later).imp_right (List.mem_cons_of_mem _)
        · rw [insert, if_neg same, if_neg before] at inside
          exact List.mem_cons.mp inside

theorem IsOrdered.insert (ordered : IsOrdered fields) (key : String) (value : α) :
    IsOrdered (Fields.insert key value fields) := by
  induction fields with
  | nil => exact List.pairwise_singleton _ _
  | cons first rest ih =>
      obtain ⟨name, old⟩ := first
      obtain ⟨lowest, rising⟩ := isOrdered_cons_iff.mp ordered
      by_cases same : name = key
      · rw [Fields.insert, if_pos same, isOrdered_cons_iff]
        exact ⟨same ▸ lowest, rising⟩
      · by_cases before : name < key
        · rw [Fields.insert, if_neg same, if_pos before, isOrdered_cons_iff]
          refine ⟨fun later inside => ?_, ih rising⟩
          rcases mem_of_mem_insert inside with stored | kept
          · exact stored ▸ before
          · exact lowest later kept
        · have after : key < name :=
            Std.lt_of_le_of_ne (String.not_lt.mp before) (Ne.symm same)
          rw [Fields.insert, if_neg same, if_neg before, isOrdered_cons_iff]
          refine ⟨fun later inside => ?_, ordered⟩
          rcases List.mem_cons.mp inside with here | kept
          · exact here ▸ after
          · exact String.lt_trans after (lowest later kept)

theorem IsOrdered.merge (ordered : IsOrdered fields) (upper : List (String × α)) :
    IsOrdered (Fields.merge fields upper) := by
  induction upper with
  | nil => exact ordered
  | cons field rest ih => exact ih.insert field.1 field.2

/-- The first of two first keys leads nowhere in the other list. -/
theorem IsOrdered.not_lt_head {name name' : String} {first first' : α}
    (ordered : IsOrdered ((name', first') :: other))
    (agree : find? name ((name, first) :: fields) = find? name ((name', first') :: other)) :
    ¬ name < name' := by
  intro before
  have absent : find? name ((name', first') :: other) = none := by
    rw [find?_eq_none_iff]
    intro field inside
    rcases List.mem_cons.mp inside with here | later
    · exact here ▸ (String.ne_of_lt before).symm
    · exact (String.ne_of_lt (String.lt_trans before
        ((isOrdered_cons_iff.mp ordered).1 field later))).symm
  rw [absent, find?, if_pos rfl] at agree
  cases agree

theorem IsOrdered.find?_head_tail {name : String} {first : α}
    (ordered : IsOrdered ((name, first) :: fields)) : find? name fields = none := by
  rw [find?_eq_none_iff]
  exact fun field later => (String.ne_of_lt ((isOrdered_cons_iff.mp ordered).1 field later)).symm

/-- Fields in order in which every key leads to the same are the same. -/
theorem IsOrdered.ext (ordered : IsOrdered fields) (ordered' : IsOrdered other)
    (agree : ∀ key, find? key fields = find? key other) : fields = other := by
  induction fields generalizing other with
  | nil => exact (eq_nil_of_find? fun key => (agree key).symm).symm
  | cons field rest ih =>
      cases other with
      | nil => exact eq_nil_of_find? agree
      | cons field' rest' =>
          obtain ⟨name, first⟩ := field
          obtain ⟨name', first'⟩ := field'
          have same : name = name' := Std.le_antisymm
            (String.not_lt.mp (ordered.not_lt_head (agree name').symm))
            (String.not_lt.mp (ordered'.not_lt_head (agree name)))
          subst same
          have value : first = first' := by simpa [find?] using agree name
          have rest_agree : ∀ key, find? key rest = find? key rest' := by
            intro key
            by_cases here : name = key
            · rw [← here, ordered.find?_head_tail, ordered'.find?_head_tail]
            · simpa [find?, here] using agree key
          rw [value, ih (isOrdered_cons_iff.mp ordered).2 (isOrdered_cons_iff.mp ordered').2
            rest_agree]

end AgentKit.Fields
