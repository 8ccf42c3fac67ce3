import Mathlib.Algebra.Group.Nat.Defs

set_option autoImplicit false

namespace GolombSet.Word

theorem two_pow_eq {width : Nat} (small : width ≤ 64) : 2 ^ 64 = 2 ^ (64 - width) * 2 ^ width := by
  rw [← Nat.pow_add, Nat.sub_add_cancel small]

theorem add_lt_of_fits {width high low : Nat} (small : width ≤ 64)
    (fits : high * 2 ^ width < 2 ^ 64) (below : low < 2 ^ width) :
    high * 2 ^ width + low < 2 ^ 64 := by
  rw [two_pow_eq small] at fits ⊢
  have room := Nat.mul_le_mul_right (2 ^ width)
    (Nat.succ_le_of_lt (Nat.lt_of_mul_lt_mul_right fits))
  rw [Nat.succ_mul] at room
  omega

theorem shiftLeft_or {width high low : Nat} (small : width ≤ 64)
    (fits : high * 2 ^ width < 2 ^ 64) (below : low < 2 ^ width) :
    UInt64.ofNat high <<< UInt64.ofNat width ||| UInt64.ofNat low =
      UInt64.ofNat (high * 2 ^ width + low) := by
  have least : high ≤ high * 2 ^ width := Nat.le_mul_of_pos_right _ (Nat.two_pow_pos _)
  have most : 2 ^ width ≤ 2 ^ 64 := Nat.pow_le_pow_right (by decide) small
  have whole : high % 2 ^ 64 = high := Nat.mod_eq_of_lt (Nat.lt_of_le_of_lt least fits)
  have field : low % 2 ^ 64 = low := Nat.mod_eq_of_lt (Nat.lt_of_lt_of_le below most)
  have amount : width % 2 ^ 64 = width := Nat.mod_eq_of_lt (by omega)
  have sum := Nat.mod_eq_of_lt (add_lt_of_fits small fits below)
  apply UInt64.toNat_inj.mp
  simp only [UInt64.toNat_or, UInt64.toNat_shiftLeft, UInt64.toNat_ofNat', whole, field, amount,
    sum]
  rcases Nat.eq_or_lt_of_le small with rfl | inside
  · -- A shift by 64 is one by nothing, but there is nothing to shift.
    obtain rfl : high = 0 := by omega
    simp
  · rw [Nat.mod_eq_of_lt inside, Nat.shiftLeft_eq, Nat.mod_eq_of_lt fits, ← Nat.shiftLeft_eq,
      ← Nat.shiftLeft_add_eq_or_of_lt below]

theorem shiftRight_ne_zero_iff {width high : Nat} (positive : 0 < width) (small : width ≤ 64)
    (word : high < 2 ^ 64) :
    UInt64.ofNat high >>> (64 - UInt64.ofNat width) ≠ 0 ↔ 2 ^ 64 ≤ high * 2 ^ width := by
  have amount : (64 - UInt64.ofNat width).toNat % 64 = 64 - width := by
    rw [UInt64.toNat_sub, UInt64.toNat_ofNat', Nat.mod_eq_of_lt (show width < 2 ^ 64 by omega)]
    simp only [UInt64.reduceToNat]
    omega
  rw [Ne, ← UInt64.toNat_inj, UInt64.toNat_shiftRight, amount, UInt64.toNat_ofNat',
    Nat.mod_eq_of_lt word, Nat.shiftRight_eq_div_pow, UInt64.toNat_zero,
    Nat.div_eq_zero_iff_lt (Nat.two_pow_pos _), Nat.not_lt,
    two_pow_eq small]
  exact (Nat.mul_le_mul_right_iff (Nat.two_pow_pos _)).symm

end GolombSet.Word
