/-
# Paths of files

Of the path of a file two things are looked at before the file itself: whether two dots
stand next to each other in it, and how it ends. Both are plain facts about the characters
of the path, whatever parts it has.
-/

import AgentKit.Settings.Surroundings

namespace AgentKit

/-! ## Lower case -/

namespace Text

variable {c letter capital : Char}

theorem toNat_toLower (c : Char) :
    c.toLower.toNat = if 65 ≤ c.toNat ∧ c.toNat ≤ 90 then c.toNat + 32 else c.toNat := by
  have upper : (c.val ≥ 'A'.val ∧ c.val ≤ 'Z'.val) = (65 ≤ c.toNat ∧ c.toNat ≤ 90) := by
    simp only [ge_iff_le, UInt32.le_iff_toNat_le]
    rfl
  unfold Char.toLower
  by_cases capital : c.val ≥ 'A'.val ∧ c.val ≤ 'Z'.val
  · rw [dif_pos capital, if_pos (upper ▸ capital)]
    have bound : c.toNat ≤ 90 := (upper ▸ capital : 65 ≤ c.toNat ∧ c.toNat ≤ 90).2
    change (c.val + 32).toNat = c.val.toNat + 32
    rw [UInt32.toNat_add, Nat.mod_eq_of_lt]
    · rfl
    · change c.toNat + 32 < 2 ^ 32
      omega
  · rw [dif_neg capital, if_neg (upper ▸ capital)]

/-- A letter is the lower case of itself and of its capital. -/
theorem toLower_eq_letter_iff (small : 97 ≤ letter.toNat ∧ letter.toNat ≤ 122)
    (large : capital.toNat + 32 = letter.toNat) :
    c.toLower = letter ↔ c ∈ [letter, capital] := by
  simp only [List.mem_cons, List.not_mem_nil, or_false, ← Char.toNat_inj, toNat_toLower]
  split <;> omega

theorem toLower_eq_dot_iff : c.toLower = '.' ↔ c = '.' := by
  have dot : '.'.toNat = 46 := rfl
  simp only [← Char.toNat_inj, toNat_toLower, dot]
  split <;> omega

/-- The four letters of `json`, each of them small or capital. -/
def SpellJson (letters : List Char) : Prop :=
  ∃ j s o n, letters = [j, s, o, n] ∧
    j ∈ ['j', 'J'] ∧ s ∈ ['s', 'S'] ∧ o ∈ ['o', 'O'] ∧ n ∈ ['n', 'N']

theorem lower_eq_iff_spellJson {text : String} :
    lower text = ".json" ↔ ∃ letters, text = String.ofList ('.' :: letters) ∧ SpellJson letters := by
  have j : ∀ c : Char, c.toLower = 'j' ↔ c ∈ ['j', 'J'] := fun _ =>
    toLower_eq_letter_iff (by decide) rfl
  have s : ∀ c : Char, c.toLower = 's' ↔ c ∈ ['s', 'S'] := fun _ =>
    toLower_eq_letter_iff (by decide) rfl
  have o : ∀ c : Char, c.toLower = 'o' ↔ c ∈ ['o', 'O'] := fun _ =>
    toLower_eq_letter_iff (by decide) rfl
  have n : ∀ c : Char, c.toLower = 'n' ↔ c ∈ ['n', 'N'] := fun _ =>
    toLower_eq_letter_iff (by decide) rfl
  have letters : lower text = ".json" ↔
      text.toList.map Char.toLower = ['.', 'j', 's', 'o', 'n'] := by
    rw [← String.toList_inj, lower, String.toList_map]
    rfl
  rw [letters]
  simp only [List.map_eq_cons_iff, List.map_eq_nil_iff, toLower_eq_dot_iff, j, s, o, n]
  constructor
  · rintro ⟨_, _, whole, rfl, _, _, rfl, isJ, _, _, rfl, isS, _, _, rfl, isO, _, _, rfl, isN, rfl⟩
    exact ⟨_, by rw [← whole, String.ofList_toList], _, _, _, _, rfl, isJ, isS, isO, isN⟩
  · rintro ⟨_, rfl, _, _, _, _, rfl, isJ, isS, isO, isN⟩
    exact ⟨_, _, String.toList_ofList, rfl, _, _, rfl, isJ, _, _, rfl, isS, _, _, rfl, isO,
      _, _, rfl, isN, rfl⟩

theorem SpellJson.not_mem {letters : List Char} (json : SpellJson letters) {c : Char}
    (other : c.isAlpha = false) : c ∉ letters := by
  obtain ⟨j, s, o, n, rfl, isJ, isS, isO, isN⟩ := json
  simp only [List.mem_cons, List.not_mem_nil, or_false] at *
  rintro (rfl | rfl | rfl | rfl)
  · rcases isJ with rfl | rfl <;> cases other
  · rcases isS with rfl | rfl <;> cases other
  · rcases isO with rfl | rfl <;> cases other
  · rcases isN with rfl | rfl <;> cases other

end Text

namespace FilePath

variable {mark : Char} {front word cs : List Char} {path : String}

/-- A path is taken to climb if two dots stand next to each other anywhere in it. -/
theorem climbs_iff : climbs path ↔ ['.', '.'] <:+: path.toList := by
  unfold climbs
  induction path.toList with
  | nil => simp
  | cons first rest ih =>
      rw [List.infix_cons_iff, ← ih]
      cases rest with
      | nil => simp
      | cons second rest => simp [List.cons_prefix_cons]

theorem not_mem_afterLast : mark ∉ afterLast mark cs := by
  intro mem
  rw [afterLast, List.mem_reverse] at mem
  simpa using List.all_eq_true.mp List.all_takeWhile _ mem

theorem afterLast_append (free : mark ∉ word) :
    afterLast mark (front ++ word) = afterLast mark front ++ word := by
  have whole : ∀ c ∈ word.reverse, decide (c ≠ mark) = true := by
    intro c mem
    rw [List.mem_reverse] at mem
    exact decide_eq_true fun same => free (same ▸ mem)
  rw [afterLast, List.reverse_append, List.takeWhile_append_of_pos whole, List.reverse_append,
    List.reverse_reverse, afterLast]

theorem afterLast_append_cons (free : mark ∉ word) :
    afterLast mark (front ++ mark :: word) = word := by
  rw [List.append_cons, afterLast_append free]
  simp [afterLast]

theorem exists_eq_append_afterLast (marked : mark ∈ cs) :
    ∃ front, cs = front ++ mark :: afterLast mark cs := by
  obtain ⟨after, before, split, free⟩ := List.eq_append_cons_of_mem (List.mem_reverse.mpr marked)
  have whole : cs = before.reverse ++ mark :: after.reverse := by
    rw [← cs.reverse_reverse, split]
    simp
  refine ⟨before.reverse, ?_⟩
  rw [whole, afterLast_append_cons (by simpa using free)]

theorem exists_eq_append_lastPart (path : List Char) : ∃ front, path = front ++ lastPart path := by
  by_cases marked : '/' ∈ path
  · obtain ⟨front, whole⟩ := exists_eq_append_afterLast marked
    exact ⟨front ++ ['/'], by rw [lastPart, List.append_assoc]; exact whole⟩
  · refine ⟨[], ?_⟩
    rw [lastPart, ← path.nil_append, afterLast_append marked]
    rfl

/-! ## Extensions -/

/-- A path has an extension of more than a dot if it ends with it, after some character of
the same part. -/
theorem extension_eq_iff (something : word ≠ []) (plain : '.' ∉ word) (inside : '/' ∉ word) :
    extension path = String.ofList ('.' :: word) ↔
      ∃ stem last, path.toList = stem ++ last :: '.' :: word ∧ last ≠ '/' := by
  unfold extension
  constructor
  · intro same
    dsimp only at same
    split at same
    · exact absurd (congrArg String.toList same) (by simp)
    · next named =>
        split at same
        · exact absurd (congrArg String.toList same) (by simp)
        · next longer =>
            have ends : afterLast '.' (lastPart path.toList) = word := by
              simpa using congrArg String.toList same
            have dotted : '.' ∈ lastPart path.toList := by
              simp only [Bool.or_eq_true, not_or, Bool.not_eq_true'] at named
              simpa using named.2
            obtain ⟨front, whole⟩ := exists_eq_append_lastPart path.toList
            obtain ⟨before, part⟩ := exists_eq_append_afterLast dotted
            rw [ends] at part longer
            have some : before ≠ [] := by
              rintro rfl
              simp [part] at longer
            obtain ⟨stem, last, rfl⟩ := List.eq_nil_or_concat before |>.resolve_left some
            refine ⟨front ++ stem, last, ?_, ?_⟩
            · rw [whole, part]
              simp
            · rintro rfl
              apply @not_mem_afterLast '/' path.toList
              rw [← lastPart, part]
              simp
  · rintro ⟨stem, last, whole, part⟩
    have name : lastPart path.toList = lastPart stem ++ last :: '.' :: word := by
      rw [whole, lastPart, afterLast_append, lastPart]
      simpa [eq_comm, inside] using part
    have ends : afterLast '.' (lastPart path.toList) = word := by
      rw [name, List.append_cons, afterLast_append_cons plain]
    obtain ⟨first, rest, rfl⟩ := List.exists_cons_of_ne_nil something
    simp only [ends]
    have longer : rest.length + 3 ≤ (lastPart path.toList).length := by
      simp only [name, List.length_append, List.length_cons]
      omega
    have named : ¬ (lastPart path.toList = ['.'] ∨ lastPart path.toList = ['.', '.']) := by
      rintro (short | short) <;> simp [short] at longer
    rw [if_neg, if_neg]
    · simp only [List.length_cons]
      omega
    · simpa [name] using named

/-- A dot in front of the name starts no extension. -/
example : extension "etc/service.v2.Json" = ".Json" ∧ extension "etc/.json" = "" := by decide

/-- The path ends with `.json`, in small letters or capitals, after some character of the
same part. -/
def EndsInJson (path : String) : Prop :=
  ∃ stem last letters, path.toList = stem ++ last :: '.' :: letters ∧ last ≠ '/' ∧
    Text.SpellJson letters

theorem lower_extension_eq_iff : Text.lower (extension path) = ".json" ↔ EndsInJson path := by
  have ends : ∀ {letters}, Text.SpellJson letters →
      (extension path = String.ofList ('.' :: letters) ↔
        ∃ stem last, path.toList = stem ++ last :: '.' :: letters ∧ last ≠ '/') := by
    intro letters json
    refine extension_eq_iff ?_ (json.not_mem rfl) (json.not_mem rfl)
    rintro rfl
    obtain ⟨_, _, _, _, none, _⟩ := json
    cases none
  rw [Text.lower_eq_iff_spellJson]
  constructor
  · rintro ⟨letters, same, json⟩
    obtain ⟨stem, last, whole, part⟩ := (ends json).mp same
    exact ⟨stem, last, letters, whole, part, json⟩
  · rintro ⟨stem, last, letters, whole, part, json⟩
    exact ⟨letters, (ends json).mpr ⟨stem, last, whole, part⟩, json⟩

end FilePath

end AgentKit
