import GolombSet.Bytes

set_option autoImplicit false

namespace GolombSet

abbrev Bits := List Bool

namespace Bits

/-- The lowest bits, most significant first. -/
def ofNat : Nat → Nat → Bits
  | 0, _ => []
  | width + 1, value => value.testBit width :: ofNat width value

def low (width value : Nat) : Nat :=
  value % 1 <<< width

def toNat (bits : Bits) : Nat :=
  bits.foldl (fun value bit => 2 * value + bit.toNat) 0

def ofBytes (bytes : Bytes) : Bits :=
  bytes.flatMap fun byte => ofNat 8 byte.toNat

/-- Fewer than eight zeros fill up the last byte. -/
def pack (bits : Bits) : Bytes :=
  (List.range ((bits.length + 7) / 8)).map fun i =>
    let byte := (bits.drop (8 * i)).take 8
    UInt8.ofNat (toNat (byte ++ List.replicate (8 - byte.length) false))

@[simp] theorem length_ofNat (width value : Nat) : (ofNat width value).length = width := by
  induction width with
  | zero => rfl
  | succ width ih => simp [ofNat, ih]

@[simp] theorem length_ofBytes (bytes : Bytes) : (ofBytes bytes).length = 8 * bytes.length := by
  induction bytes with
  | nil => rfl
  | cons byte rest ih => simp [ofBytes] at ih ⊢; omega

theorem ofNat_add (high low value : Nat) :
    ofNat (high + low) value = ofNat high (value >>> low) ++ ofNat low value := by
  induction high with
  | zero => simp [ofNat]
  | succ high ih =>
    have shift : (value >>> low).testBit high = value.testBit (high + low) := by
      rw [Nat.testBit_shiftRight, Nat.add_comm]
    rw [Nat.add_right_comm, ofNat, ih, ofNat, shift, List.cons_append]

@[simp] theorem ofNat_low (width value : Nat) :
    ofNat width (low width value) = ofNat width value := by
  have lower (n : Nat) (le : n ≤ width) : ofNat n (low width value) = ofNat n value := by
    induction n with
    | zero => rfl
    | succ n ih =>
      have top : (low width value).testBit n = value.testBit n := by
        have below : n < width := le
        rw [low, Nat.shiftLeft_eq, Nat.one_mul, Nat.testBit_mod_two_pow,
          decide_eq_true below, Bool.true_and]
      rw [ofNat, ofNat, top, ih (by omega)]
  exact lower width (Nat.le_refl width)

theorem ofNat_shiftLeft_add (high width value field : Nat) :
    ofNat (high + width) (value <<< width + low width field) =
      ofNat high value ++ ofNat width field := by
  have small : low width field < 2 ^ width := by
    rw [low, Nat.shiftLeft_eq, Nat.one_mul]
    exact Nat.mod_lt _ (Nat.two_pow_pos _)
  have upper : (value <<< width + low width field) >>> width = value := by
    rw [Nat.shiftLeft_eq, Nat.shiftRight_eq_div_pow, Nat.mul_comm,
      Nat.mul_add_div (Nat.two_pow_pos _), Nat.div_eq_of_lt small, Nat.add_zero]
  have lower : low width (value <<< width + low width field) = low width field := by
    simp [low, Nat.shiftLeft_eq]
  rw [ofNat_add, upper, ← ofNat_low width (value <<< width + low width field), lower, ofNat_low]

theorem shiftLeft_one_add_low (value : Nat) (bit : Bool) :
    value <<< 1 + low 1 bit.toNat = 2 * value + bit.toNat := by
  rw [Nat.shiftLeft_eq, Nat.mul_comm]
  cases bit <;> rfl

theorem foldl_ofNat (width value start : Nat) :
    (ofNat width value).foldl (fun value bit => 2 * value + bit.toNat) start =
      start <<< width + low width value := by
  rw [low, Nat.shiftLeft_eq, Nat.shiftLeft_eq, Nat.one_mul]
  induction width generalizing start with
  | zero => simp [ofNat, Nat.mod_one]
  | succ width ih =>
    have top : value % 2 ^ (width + 1) =
        value % 2 ^ width + 2 ^ width * (value.testBit width).toNat := by
      rw [Nat.pow_succ, Nat.mod_mul, Nat.testBit_eq_decide_div_mod_eq]
      rcases Nat.mod_two_eq_zero_or_one (value / 2 ^ width) with h | h <;> simp [h]
    rw [ofNat, List.foldl_cons, ih, top, Nat.pow_succ]
    grind

theorem toNat_ofNat (width value : Nat) : toNat (ofNat width value) = low width value := by
  simp [toNat, foldl_ofNat]

end Bits

end GolombSet
