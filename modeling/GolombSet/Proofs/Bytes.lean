import GolombSet.Bytes
import Mathlib.Algebra.Group.Nat.Defs

set_option autoImplicit false

namespace GolombSet.Bytes

theorem sized?_eq_some_iff {A : Type} {size : Nat}
    {make : (bytes : Bytes) → bytes.length = size → A} {bytesOf : A → Bytes}
    (made : ∀ bytes length_bytes, bytesOf (make bytes length_bytes) = bytes)
    (back : ∀ value, ∃ length_bytes, make (bytesOf value) length_bytes = value)
    (bytes : Bytes) (value : A) : bytes.sized? size make = some value ↔ bytesOf value = bytes := by
  unfold sized?
  constructor
  · intro found
    split at found
    · cases found
      exact made bytes _
    · contradiction
  · rintro rfl
    obtain ⟨length_bytes, same⟩ := back value
    rw [dif_pos length_bytes, same]

theorem toNatLE_append (front rest : Bytes) :
    toNatLE (front ++ rest) = toNatLE front + 256 ^ front.length * toNatLE rest := by
  induction front with
  | nil => simp [toNatLE]
  | cons byte front ih =>
    rw [List.cons_append, toNatLE, ih, toNatLE, List.length_cons, Nat.pow_succ', Nat.mul_add,
      Nat.mul_assoc, Nat.add_assoc]

theorem toNatLE_lt (bytes : Bytes) : toNatLE bytes < 256 ^ bytes.length := by
  induction bytes with
  | nil => simp [toNatLE]
  | cons byte rest ih =>
    have low := byte.toNat_lt
    rw [toNatLE, List.length_cons, Nat.pow_succ']
    omega

theorem toNatLE_ofNatLE (width value : Nat) :
    toNatLE (ofNatLE width value) = value % 256 ^ width := by
  induction width generalizing value with
  | zero => simp [ofNatLE, toNatLE, Nat.mod_one]
  | succ width ih =>
    rw [ofNatLE, toNatLE, ih, Nat.pow_succ', Nat.mod_mul]
    rfl

section

variable {size : Nat} (positive : 0 < size)

include positive

end

end GolombSet.Bytes
