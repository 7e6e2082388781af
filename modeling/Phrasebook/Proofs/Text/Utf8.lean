import Mathlib
import Phrasebook.Text.Utf8

/-
  The bytes of a text, and where the ASCII characters stand among them.

  An ASCII character is one byte, and that byte occurs in the encoding of no
  other character (`mem_encodeChar_iff`). So a search for the byte finds the
  character (`mem_encode_iff`).
-/

namespace Phrasebook.Utf8

@[simp] theorem encode_nil : encode [] = [] := rfl

@[simp] theorem encode_cons (c : Char) (text : List Char) :
    encode (c :: text) = String.utf8EncodeChar c ++ encode text := rfl

@[simp] theorem encode_append (a b : List Char) : encode (a ++ b) = encode a ++ encode b :=
  List.flatMap_append

theorem toByteArray_encode (text : List Char) :
    (encode text).toByteArray = (String.ofList text).toByteArray := by
  simp [encode, List.utf8Encode]

theorem length_encode (text : List Char) :
    (encode text).length = (String.ofList text).utf8ByteSize := by
  rw [← String.size_toByteArray, ← toByteArray_encode, List.size_toByteArray]

theorem exists_encodeChar (c : Char) : ∃ first more, String.utf8EncodeChar c = first :: more := by
  refine List.exists_cons_of_length_pos ?_
  rw [String.length_utf8EncodeChar]
  exact c.utf8Size_pos

/-! ## ASCII -/

theorem le_or_right {m : UInt8} (h : 0x80 ≤ m) (x : UInt8) : 0x80 ≤ x ||| m := by
  rw [UInt8.le_iff_toNat_le] at h ⊢
  rw [UInt8.toNat_or]
  exact Nat.le_trans h Nat.right_le_or

theorem encodeChar_cases (c : Char) :
    c.val ≤ 127 ∧ String.utf8EncodeChar c = [c.toUInt8] ∨
      127 < c.val ∧ ∀ b ∈ String.utf8EncodeChar c, 0x80 ≤ b := by
  -- by the number of bytes: past the first length all of them have the top bit
  rcases c.utf8Size_eq with h | h | h | h
  · exact .inl ⟨Char.utf8Size_eq_one_iff.mp h, String.utf8EncodeChar_eq_singleton h⟩
  · refine .inr ⟨(Char.utf8Size_eq_two_iff.mp h).1, ?_⟩
    rw [String.utf8EncodeChar_eq_cons_cons h]
    simp only [List.forall_mem_cons, List.not_mem_nil, false_imp_iff, implies_true, and_true]
    exact ⟨le_or_right (by decide) _, le_or_right (by decide) _⟩
  · refine .inr ⟨UInt32.lt_trans (by decide) (Char.utf8Size_eq_three_iff.mp h).1, ?_⟩
    rw [String.utf8EncodeChar_eq_cons_cons_cons h]
    simp only [List.forall_mem_cons, List.not_mem_nil, false_imp_iff, implies_true, and_true]
    exact ⟨le_or_right (by decide) _, le_or_right (by decide) _, le_or_right (by decide) _⟩
  · refine .inr ⟨UInt32.lt_trans (by decide) (Char.utf8Size_eq_four_iff.mp h), ?_⟩
    rw [String.utf8EncodeChar_eq_cons_cons_cons_cons h]
    simp only [List.forall_mem_cons, List.not_mem_nil, false_imp_iff, implies_true, and_true]
    exact ⟨le_or_right (by decide) _, le_or_right (by decide) _, le_or_right (by decide) _,
      le_or_right (by decide) _⟩

section
variable {a : Char} (h : a.val ≤ 127)
include h

theorem encodeChar_ascii : String.utf8EncodeChar a = [a.toUInt8] :=
  String.utf8EncodeChar_eq_singleton (Char.utf8Size_eq_one_iff.mpr h)

theorem toNat_toUInt8 : a.toUInt8.toNat = a.val.toNat := by
  have := UInt32.le_iff_toNat_le.mp h
  have h' : (127 : UInt32).toNat = 127 := rfl
  rw [Char.toUInt8, UInt32.toNat_toUInt8]
  omega

/-- The byte of an ASCII character is found in the encoding of no other. -/
theorem mem_encodeChar_iff {c : Char} : a.toUInt8 ∈ String.utf8EncodeChar c ↔ c = a := by
  have ha := toNat_toUInt8 h
  have hle := UInt32.le_iff_toNat_le.mp h
  have h127 : (127 : UInt32).toNat = 127 := rfl
  constructor
  · intro hm
    rcases encodeChar_cases c with ⟨hc, hsingle⟩ | ⟨-, hhigh⟩
    · rw [hsingle, List.mem_singleton] at hm
      have := toNat_toUInt8 hc
      rw [← hm, ha] at this
      exact Char.ext (UInt32.toNat_inj.mp this.symm)
    · have := UInt8.le_iff_toNat_le.mp (hhigh _ hm)
      have h80 : (0x80 : UInt8).toNat = 128 := rfl
      omega
  · rintro rfl
    rw [encodeChar_ascii h]
    exact List.mem_singleton_self _

theorem mem_encode_iff {text : List Char} : a.toUInt8 ∈ encode text ↔ a ∈ text := by
  simp only [encode, List.mem_flatMap, mem_encodeChar_iff h]
  simp

/-- No byte of a character but its first is an ASCII character's. -/
theorem not_mem_tail_encodeChar (c : Char) : a.toUInt8 ∉ (String.utf8EncodeChar c).tail := by
  intro hm
  have hc := (mem_encodeChar_iff h).mp (List.mem_of_mem_tail hm)
  rw [hc, encodeChar_ascii h] at hm
  simp at hm

end

end Phrasebook.Utf8
