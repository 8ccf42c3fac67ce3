import GolombSet.Key

set_option autoImplicit false

namespace GolombSet

theorem toNat_reduce (hash range : UInt64) :
    (reduce hash range).toNat = hash.toNat * range.toNat / UInt64.size := by
  have bound : hash.toNat * range.toNat / UInt64.size < UInt64.size := by
    apply Nat.div_lt_of_lt_mul
    exact Nat.mul_lt_mul'' hash.toNat_lt range.toNat_lt
  rw [reduce, Nat.shiftRight_eq_div_pow]
  exact Nat.mod_eq_of_lt bound

theorem reduce_lt (hash range : UInt64) (positive : 0 < range.toNat) :
    (reduce hash range).toNat < range.toNat := by
  rw [toNat_reduce]
  apply Nat.div_lt_of_lt_mul
  exact Nat.mul_lt_mul_of_pos_right hash.toNat_lt positive

theorem reduce_le_reduce {hash later range wider : UInt64} (hashes : hash ≤ later)
    (ranges : range ≤ wider) : reduce hash range ≤ reduce later wider := by
  rw [UInt64.le_iff_toNat_le, toNat_reduce, toNat_reduce]
  apply Nat.div_le_div_right
  exact Nat.mul_le_mul (UInt64.le_iff_toNat_le.mp hashes) (UInt64.le_iff_toNat_le.mp ranges)

theorem pairwise_mergeSort {A : Type} [LE A] [DecidableLE A] [Std.IsLinearPreorder A]
    (list : List A) : (list.mergeSort fun a b => decide (a ≤ b)).Pairwise (· ≤ ·) := by
  have sorted := @List.pairwise_mergeSort A (fun a b => decide (a ≤ b))
    (by simpa using fun a b c => Std.le_trans) (by simpa using fun a b => Std.le_total) list
  simpa using sorted

end GolombSet
