import Mathlib
import Solvency.Sheet.Cell

/-! # Encoded texts

A text is encoded character by character. The marks of a sheet are single bytes, and no other
character has such a byte in its code.
-/
namespace Solvency.Sheet

/-- The bytes of characters that are written one behind the other. -/
def bytesOf (cs : List Char) : Bytes := cs.flatMap String.utf8EncodeChar

theorem bytesOf_append (xs ys : List Char) : bytesOf (xs ++ ys) = bytesOf xs ++ bytesOf ys :=
  List.flatMap_append

theorem bytesOf_cons (c : Char) (cs : List Char) :
    bytesOf (c :: cs) = String.utf8EncodeChar c ++ bytesOf cs := List.flatMap_cons

theorem bytesOf_eq_nil {cs : List Char} (h : bytesOf cs = []) : cs = [] := by
  cases cs with
  | nil => rfl
  | cons c cs =>
    rw [bytesOf_cons] at h
    exact absurd (List.append_eq_nil_iff.mp h).1 String.utf8EncodeChar_ne_nil

theorem encode_ofList (cs : List Char) : encode (String.ofList cs) = bytesOf cs := by
  show (String.ofList cs).toByteArray.data.toList = _
  rw [String.toByteArray_ofList, List.utf8Encode, List.toList_data_toByteArray, bytesOf]

theorem encode_eq (text : String) : encode text = bytesOf text.toList := by
  rw [← encode_ofList, String.ofList_toList]

/-- A byte below 128 stands for the character of that number. -/
theorem toNat_of_mem_utf8EncodeChar {c : Char} {b : UInt8} (hb : b ∈ String.utf8EncodeChar c)
    (h : b.toNat < 128) : c.toNat = b.toNat := by
  unfold String.utf8EncodeChar at hb
  show c.val.toNat = b.toNat
  generalize c.val.toNat = v at hb ⊢
  simp only at hb
  split_ifs at hb
  · rw [List.mem_singleton] at hb
    subst hb
    simp only [UInt8.toNat_ofNat']
    omega
  all_goals
    simp only [List.mem_cons, List.not_mem_nil, or_false] at hb
    rcases hb with rfl | hb
    · simp only [UInt8.toNat_ofNat'] at h
      omega
  · subst hb
    simp only [UInt8.toNat_ofNat'] at h
    omega
  · rcases hb with rfl | rfl <;> simp only [UInt8.toNat_ofNat'] at h <;> omega
  · rcases hb with rfl | rfl | rfl <;> simp only [UInt8.toNat_ofNat'] at h <;> omega

theorem eq_of_mem_utf8EncodeChar {c d : Char} {b : UInt8} (hb : b ∈ String.utf8EncodeChar c)
    (hd : b.toNat = d.toNat) (h : d.toNat < 128) : c = d := by
  have hc := toNat_of_mem_utf8EncodeChar hb (by omega)
  rw [← Char.ofNat_toNat c, ← Char.ofNat_toNat d, hc, hd]

end Solvency.Sheet
