import Mathlib.Tactic.SplitIfs

/-! Texts in the order of their bytes.

Texts are ordered by their characters, and characters by their numbers. The bytes of a character tell its number from
the highest digits down, and the first byte of a longer encoding is the greater one. So the order is that of the bytes
as well.
-/

set_option autoImplicit false

namespace Stencil.Text

def bytes (text : String) : List UInt8 := text.toUTF8.data.toList

theorem bytes_ofList (text : List Char) : bytes (String.ofList text) = text.flatMap String.utf8EncodeChar := by
  rw [bytes, String.toUTF8_eq_toByteArray, String.toByteArray_ofList, List.utf8Encode, List.data_toByteArray]

theorem fourBytes_lt {m n : Nat} (less : m < n) (valid : n < 1114112) (behind : Prop) :
    (m / 262144 % 8 + 240) % 256 < (n / 262144 % 8 + 240) % 256 ∨
      (m / 262144 % 8 + 240) % 256 = (n / 262144 % 8 + 240) % 256 ∧
        ((m / 4096 % 64 + 128) % 256 < (n / 4096 % 64 + 128) % 256 ∨
          (m / 4096 % 64 + 128) % 256 = (n / 4096 % 64 + 128) % 256 ∧
            ((m / 64 % 64 + 128) % 256 < (n / 64 % 64 + 128) % 256 ∨
              (m / 64 % 64 + 128) % 256 = (n / 64 % 64 + 128) % 256 ∧
                ((m % 64 + 128) % 256 < (n % 64 + 128) % 256 ∨
                  (m % 64 + 128) % 256 = (n % 64 + 128) % 256 ∧ behind))) := by
  have digits : m / 262144 < n / 262144 ∨ m / 262144 = n / 262144 ∧
      (m / 4096 % 64 < n / 4096 % 64 ∨ m / 4096 % 64 = n / 4096 % 64 ∧
        (m / 64 % 64 < n / 64 % 64 ∨ m / 64 % 64 = n / 64 % 64 ∧ m % 64 < n % 64)) := by omega
  have byte (k : Nat) : (k % 64 + 128) % 256 = k % 64 + 128 := by omega
  have leading (k : Nat) (valid : k < 1114112) : (k / 262144 % 8 + 240) % 256 = k / 262144 + 240 := by omega
  simp only [byte, leading m (by omega), leading n (by omega), Nat.add_lt_add_iff_right,
    Nat.add_right_cancel_iff]
  obtain less | ⟨same, less | ⟨same', less | ⟨same'', less⟩⟩⟩ := digits
  · exact .inl less
  · exact .inr ⟨same, .inl less⟩
  · exact .inr ⟨same, .inr ⟨same', .inl less⟩⟩
  · exact .inr ⟨same, .inr ⟨same', .inr ⟨same'', .inl less⟩⟩⟩

theorem utf8EncodeChar_append_lt {c d : Char} (less : c < d) (rest other : List UInt8) :
    String.utf8EncodeChar c ++ rest < String.utf8EncodeChar d ++ other := by
  have below : c.val.toNat < d.val.toNat := less
  have valid := d.valid
  simp only [UInt32.isValidChar, Nat.isValidChar] at valid
  unfold String.utf8EncodeChar
  simp only
  generalize c.val.toNat = m at below
  generalize d.val.toNat = n at below valid
  by_cases four : m ≤ 65535
  · -- One case for each pair of lengths. Of two encodings of one length, the first byte that differs decides.
    split_ifs <;>
      simp only [List.cons_append, List.nil_append, List.cons_lt_cons_iff, UInt8.lt_iff_toNat_lt,
        ← UInt8.toNat_inj, UInt8.toNat_ofNat'] <;>
      omega
  · have short (k : Nat) (long : ¬ k ≤ 65535) : ¬ k ≤ 127 ∧ ¬ k ≤ 2047 := by omega
    have four' : ¬ n ≤ 65535 := by omega
    simp only [short m four, short n four', four, four', if_false, List.cons_append, List.nil_append,
      List.cons_lt_cons_iff, UInt8.lt_iff_toNat_lt, ← UInt8.toNat_inj, UInt8.toNat_ofNat']
    exact fourBytes_lt below (by omega) _

theorem flatMap_utf8EncodeChar_lt {text other : List Char} (less : text < other) :
    text.flatMap String.utf8EncodeChar < other.flatMap String.utf8EncodeChar := by
  induction less with
  | @nil c rest =>
    obtain ⟨byte, more, bytes⟩ := List.exists_cons_of_ne_nil (String.utf8EncodeChar_ne_nil : String.utf8EncodeChar c ≠ [])
    rw [List.flatMap_nil, List.flatMap_cons, bytes, List.cons_append]
    exact List.nil_lt_cons _ _
  | rel less => exact utf8EncodeChar_append_lt less _ _
  | cons _ ih => exact List.append_left_lt ih

theorem bytes_lt_iff {text other : String} : bytes text < bytes other ↔ text < other := by
  have mono {s t : String} (less : s < t) : bytes s < bytes t := by
    have encoded := flatMap_utf8EncodeChar_lt (show s.toList < t.toList from less)
    rwa [← bytes_ofList, ← bytes_ofList, String.ofList_toList, String.ofList_toList] at encoded
  refine ⟨fun less => ?_, mono⟩
  by_cases greater : other < text
  · exact absurd (mono greater) (List.lt_asymm less)
  · by_cases smaller : text < other
    · exact smaller
    · rw [String.le_antisymm greater smaller] at less
      exact absurd less (List.lt_irrefl _)

end Stencil.Text
