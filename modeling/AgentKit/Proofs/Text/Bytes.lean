/-
# The bytes of ASCII texts

A text of ASCII characters has one byte for each of them, and these bytes are the numbers
of the characters.
-/

import AgentKit.Text.Ascii

namespace AgentKit.Text

/-- The bytes of a text. -/
def bytes (text : String) : List UInt8 :=
  text.toByteArray.data.toList

/-- The byte of an ASCII character. -/
def byteOf (c : Char) : UInt8 :=
  c.val.toUInt8

/-- Only ASCII characters. -/
def IsAscii (cs : List Char) : Prop :=
  ∀ c ∈ cs, c.toNat ≤ 127

@[simp]
theorem isAscii_nil : IsAscii [] :=
  List.forall_mem_nil _

@[simp]
theorem isAscii_cons_iff {c : Char} {cs : List Char} :
    IsAscii (c :: cs) ↔ c.toNat ≤ 127 ∧ IsAscii cs :=
  List.forall_mem_cons

@[simp]
theorem isAscii_append_iff {cs ds : List Char} : IsAscii (cs ++ ds) ↔ IsAscii cs ∧ IsAscii ds :=
  List.forall_mem_append

theorem bytes_ofList {cs : List Char} (ascii : IsAscii cs) :
    bytes (String.ofList cs) = cs.map byteOf := by
  rw [bytes, String.toByteArray_ofList, List.utf8Encode, List.toList_data_toByteArray]
  induction cs with
  | nil => rfl
  | cons c cs ih =>
      obtain ⟨here, rest⟩ := isAscii_cons_iff.mp ascii
      have single : c.utf8Size = 1 :=
        Char.utf8Size_eq_one_iff.mpr (UInt32.le_iff_toNat_le.mpr here)
      rw [List.flatMap_cons, String.utf8EncodeChar_eq_singleton single, ih rest]
      rfl

theorem toNat_byteOf {c : Char} (ascii : c.toNat ≤ 127) : (byteOf c).toNat = c.toNat := by
  rw [byteOf, UInt32.toNat_toUInt8]
  exact Nat.mod_eq_of_lt (Nat.lt_of_le_of_lt ascii (by decide))

end AgentKit.Text
