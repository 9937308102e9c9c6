import Mathlib.Algebra.Group.Nat.Defs
import Mathlib.Data.List.Basic

/-!
# Big-endian length prefixes
-/

namespace Fantastic

abbrev Bytes := List UInt8

/-- The four bytes of a number, modulo `2 ^ 32`. -/
def beBytes (number : Nat) : Bytes :=
  [UInt8.ofNat (number / 2 ^ 24), UInt8.ofNat (number / 2 ^ 16), UInt8.ofNat (number / 2 ^ 8),
    UInt8.ofNat number]

/-- The number in the first four bytes. -/
def beValue : Bytes → Option Nat
  | first :: second :: third :: fourth :: _ =>
    some (first.toNat * 2 ^ 24 + second.toNat * 2 ^ 16 + third.toNat * 2 ^ 8 + fourth.toNat)
  | _ => none

theorem beBytes_length (number : Nat) : (beBytes number).length = 4 := rfl

theorem beValue_beBytes (number : Nat) (rest : Bytes) :
    beValue (beBytes number ++ rest) = some (number % 2 ^ 32) := by
  simp only [beBytes, List.cons_append, beValue, UInt8.toNat_ofNat', Option.some.injEq]
  omega

/-- A length prefix, a header and a body come apart again at the header's length. -/
theorem framed_split (number : Nat) (head body : Bytes) :
    ((beBytes number ++ (head ++ body)).drop 4).take head.length = head ∧
      (beBytes number ++ (head ++ body)).drop (4 + head.length) = body := by
  have past : (beBytes number ++ (head ++ body)).drop 4 = head ++ body :=
    List.drop_left' (beBytes_length _)
  constructor
  · rw [past, List.take_left]
  · rw [← List.drop_drop, past, List.drop_left]

end Fantastic
