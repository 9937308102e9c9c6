import Mathlib.Data.List.Basic
import Mathlib.Tactic.SplitIfs

/-!
# UTF-8 texts as byte lists
-/

namespace Fantastic

/-- The bytes of `text.encode("utf-8")` and of `str::as_bytes`. -/
def utf8 (text : String) : List UInt8 :=
  text.toList.flatMap String.utf8EncodeChar

theorem utf8_append (first second : String) :
    utf8 (first ++ second) = utf8 first ++ utf8 second := by
  simp only [utf8, String.toList_append, List.flatMap_append]

theorem utf8_toByteArray (text : String) : (utf8 text).toByteArray = text.toByteArray := by
  rw [utf8, ← String.utf8Encode_toList, List.utf8Encode]

theorem utf8_length (text : String) : (utf8 text).length = text.utf8ByteSize := by
  rw [← String.size_toByteArray, ← utf8_toByteArray, List.size_toByteArray]

theorem utf8_injective {first second : String} (same : utf8 first = utf8 second) :
    first = second := by
  rw [← String.toByteArray_inj, ← utf8_toByteArray, ← utf8_toByteArray, same]

theorem fromUTF8_utf8 (text : String) : String.fromUTF8? (utf8 text).toByteArray = some text := by
  rw [utf8_toByteArray, String.fromUTF8?, dif_pos (String.isValidUTF8 text)]
  exact congrArg some (String.toByteArray_inj.mp rfl)

/-! ### Bytes of ASCII -/

theorem encode_ascii {char : Char} (small : char.toNat < 0x80) :
    String.utf8EncodeChar char = [UInt8.ofNat char.toNat] := by
  change char.val.toNat < 0x80 at small
  unfold String.utf8EncodeChar
  rw [if_pos (by omega)]
  rfl

/-- A byte below 0x80 stands for itself. -/
theorem ascii_byte {char : Char} {byte : UInt8} (member : byte ∈ String.utf8EncodeChar char)
    (small : byte.toNat < 0x80) :
    String.utf8EncodeChar char = [byte] ∧ char.toNat = byte.toNat := by
  have number (value : Nat) (fits : value < 256) : (UInt8.ofNat value).toNat = value :=
    UInt8.toNat_ofNat_of_lt' fits
  by_cases ascii : char.toNat < 0x80
  · rw [encode_ascii ascii, List.mem_singleton] at member
    subst member
    exact ⟨encode_ascii ascii, (number _ (by omega)).symm⟩
  · exfalso
    change ¬char.val.toNat < 0x80 at ascii
    have scalar := char.valid
    simp only [UInt32.isValidChar, Nat.isValidChar] at scalar
    generalize value_eq : char.val.toNat = value at scalar ascii
    unfold String.utf8EncodeChar at member
    simp only [value_eq] at member
    -- two, three and four bytes, all of them from 0x80 on
    split_ifs at member
    all_goals
      simp only [List.mem_cons, List.not_mem_nil, or_false] at member
    · omega
    · rcases member with rfl | rfl <;> rw [number _ (by omega)] at small <;> omega
    · rcases member with rfl | rfl | rfl <;> rw [number _ (by omega)] at small <;> omega
    · rcases member with rfl | rfl | rfl | rfl <;> rw [number _ (by omega)] at small <;> omega

end Fantastic
