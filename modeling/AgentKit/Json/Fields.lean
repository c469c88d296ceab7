/-
# Fields in the order of their keys

Objects and other tables by name are lists of fields in the order of their
keys, each key once. Inserting keeps this order. Looking up and laying one list
over another do not rely on it: the first field with a key is the one that
counts, in any list.
-/

namespace AgentKit.Fields

variable {α : Type}

/-- The first value under a key. -/
def find? (key : String) : List (String × α) → Option α
  | [] => none
  | (name, value) :: rest => if name = key then some value else find? key rest

/-- The fields that have a value. -/
def present (fields : List (String × Option α)) : List (String × α) :=
  fields.filterMap fun (key, value) => value.map fun value => (key, value)

/-- Stores a value under a key, in place of an earlier one, at the position that
the order of the keys gives it. -/
def insert (key : String) (value : α) : List (String × α) → List (String × α)
  | [] => [(key, value)]
  | (name, old) :: rest =>
    if name = key then (key, value) :: rest
    else if name < key then (name, old) :: insert key value rest
    else (key, value) :: (name, old) :: rest

/-- The fields of `upper` laid over `fields`: where both have a key, `upper`
wins. -/
def merge (fields upper : List (String × α)) : List (String × α) :=
  upper.foldr (fun field merged => insert field.1 field.2 merged) fields

theorem find?_present_cons (key name : String) (value : Option α)
    (rest : List (String × Option α)) :
    find? key (present ((name, value) :: rest)) =
      if name = key then value.or (find? key (present rest)) else find? key (present rest) := by
  cases value <;> simp [present, find?]

theorem find?_present_eq_none {key : String} {fields : List (String × Option α)}
    (absent : key ∉ fields.map Prod.fst) : find? key (present fields) = none := by
  induction fields with
  | nil => rfl
  | cons field rest ih =>
      simp only [List.map_cons, List.mem_cons, not_or] at absent
      rw [find?_present_cons, if_neg (Ne.symm absent.1), ih absent.2]

/-- Of fields with different keys, each is found with the value that it has, if it has
one. -/
theorem find?_present {key : String} {value : Option α} {fields : List (String × Option α)}
    (distinct : (fields.map Prod.fst).Nodup) (listed : (key, value) ∈ fields) :
    find? key (present fields) = value := by
  induction fields with
  | nil => cases listed
  | cons field rest ih =>
      obtain ⟨name, first⟩ := field
      obtain ⟨absent, distinct⟩ := List.nodup_cons.mp distinct
      rw [find?_present_cons]
      rcases List.mem_cons.mp listed with same | later
      · cases same
        rw [if_pos rfl, find?_present_eq_none absent, Option.or_none]
      · have differ : name ≠ key := by
          rintro rfl
          exact absent (List.mem_map.mpr ⟨_, later, rfl⟩)
        rw [if_neg differ, ih distinct later]

@[simp]
theorem find?_insert_self (key : String) (value : α) (fields : List (String × α)) :
    find? key (insert key value fields) = some value := by
  induction fields with
  | nil => simp [insert, find?]
  | cons field rest ih =>
      obtain ⟨name, old⟩ := field
      by_cases same : name = key
      · simp [insert, find?, same]
      · by_cases before : name < key
        · simp [insert, find?, same, before, ih]
        · simp [insert, find?, same, before]

theorem find?_insert_of_ne {key other : String} (differ : key ≠ other) (value : α)
    (fields : List (String × α)) :
    find? other (insert key value fields) = find? other fields := by
  induction fields with
  | nil => simp [insert, find?, differ]
  | cons field rest ih =>
      obtain ⟨name, old⟩ := field
      by_cases same : name = key
      · subst same
        simp [insert, find?, differ]
      · by_cases before : name < key
        · simp [insert, find?, same, before, ih]
        · simp [insert, find?, same, before, differ]

/-- Looking up after laying one list over another looks into the upper one
first. -/
theorem find?_merge (key : String) (fields upper : List (String × α)) :
    find? key (merge fields upper) = (find? key upper).or (find? key fields) := by
  induction upper with
  | nil => simp [merge, find?]
  | cons field rest ih =>
      obtain ⟨name, value⟩ := field
      have unfold_merge :
          merge fields ((name, value) :: rest) = insert name value (merge fields rest) := rfl
      rw [unfold_merge]
      by_cases same : name = key
      · subst same
        simp [find?]
      · rw [find?_insert_of_ne same, ih]
        simp [find?, same]

end AgentKit.Fields
