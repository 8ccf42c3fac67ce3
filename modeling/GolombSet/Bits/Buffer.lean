import GolombSet.Bits

set_option autoImplicit false

namespace GolombSet

structure BitBuffer where
  full : Array UInt8
  -- The bits after the last complete byte: a number, and how many there are.
  part : Nat
  used : Nat
  used_lt : used < 8
  part_lt : part < 1 <<< used
deriving DecidableEq

namespace BitBuffer

def withCapacity (bits : Nat) : BitBuffer where
  full := Array.emptyWithCapacity ((bits + 7) / 8)
  part := 0
  used := 0
  used_lt := Nat.zero_lt_succ 7
  part_lt := Nat.zero_lt_succ 0

def empty : BitBuffer :=
  withCapacity 0

def length (buffer : BitBuffer) : Nat :=
  8 * buffer.full.size + buffer.used

def isEmpty (buffer : BitBuffer) : Bool :=
  buffer.length == 0

def toBytes (buffer : BitBuffer) : Bytes :=
  if buffer.used = 0 then buffer.full.toList
  else buffer.full.toList ++ [UInt8.ofNat (buffer.part <<< (8 - buffer.used))]

def bits (buffer : BitBuffer) : Bits :=
  Bits.ofBytes buffer.full.toList ++ Bits.ofNat buffer.used buffer.part

theorem part_append_lt (buffer : BitBuffer) (width field : Nat) :
    buffer.part <<< width + Bits.low width field < 1 <<< (buffer.used + width) := by
  have old := buffer.part_lt
  have new : field % 2 ^ width < 2 ^ width := Nat.mod_lt _ (Nat.two_pow_pos _)
  rw [Nat.shiftLeft_eq, Nat.one_mul] at old
  simp only [Bits.low, Nat.shiftLeft_eq, Nat.one_mul, Nat.pow_add]
  have room := Nat.mul_le_mul_right (2 ^ width) (Nat.succ_le_of_lt old)
  rw [Nat.succ_mul] at room
  omega

theorem part_appendBit_lt (buffer : BitBuffer) (bit : Bool) :
    2 * buffer.part + bit.toNat < 1 <<< (buffer.used + 1) := by
  rw [← Bits.shiftLeft_one_add_low]
  exact buffer.part_append_lt 1 bit.toNat

def appendWithin (buffer : BitBuffer) (width field : Nat) (fits : buffer.used + width ≤ 8) :
    BitBuffer :=
  if finished : buffer.used + width = 8 then
    { full := buffer.full.push (UInt8.ofNat (buffer.part <<< width + Bits.low width field))
      part := 0
      used := 0
      used_lt := Nat.zero_lt_succ 7
      part_lt := Nat.zero_lt_succ 0 }
  else
    { full := buffer.full
      part := buffer.part <<< width + Bits.low width field
      used := buffer.used + width
      used_lt := Nat.lt_of_le_of_ne fits finished
      part_lt := buffer.part_append_lt width field }

def appendField (buffer : BitBuffer) (value width : Nat) : BitBuffer :=
  if width = 0 then buffer
  else
    let taken := min (8 - buffer.used) width
    (buffer.appendWithin taken (value >>> (width - taken))
      (by have := buffer.used_lt; omega)).appendField value (width - taken)
termination_by width
decreasing_by
  have := buffer.used_lt
  omega

def appendBit (buffer : BitBuffer) (bit : Bool) : BitBuffer :=
  if finished : buffer.used = 7 then
    { full := buffer.full.push (UInt8.ofNat (2 * buffer.part + bit.toNat))
      part := 0
      used := 0
      used_lt := Nat.zero_lt_succ 7
      part_lt := Nat.zero_lt_succ 0 }
  else
    { full := buffer.full
      part := 2 * buffer.part + bit.toNat
      used := buffer.used + 1
      used_lt := by have := buffer.used_lt; omega
      part_lt := buffer.part_appendBit_lt bit }

def appendUnary (buffer : BitBuffer) (ones : Nat) : BitBuffer :=
  if ones < 63 then buffer.appendField ((1 <<< ones - 1) <<< 1) (ones + 1)
  else (buffer.appendField (1 <<< 63 - 1) 63).appendUnary (ones - 63)

@[simp] theorem bits_withCapacity (capacity : Nat) : (withCapacity capacity).bits = [] := rfl

theorem length_bits (buffer : BitBuffer) : buffer.bits.length = buffer.length := by
  simp [bits, length]

theorem bits_appendWithin (buffer : BitBuffer) (width field : Nat)
    (fits : buffer.used + width ≤ 8) :
    (buffer.appendWithin width field fits).bits = buffer.bits ++ Bits.ofNat width field := by
  have joined := Bits.ofNat_shiftLeft_add buffer.used width buffer.part field
  by_cases finished : buffer.used + width = 8
  · have whole := buffer.part_append_lt width field
    rw [finished] at whole joined
    have byte : (UInt8.ofNat (buffer.part <<< width + Bits.low width field)).toNat =
        buffer.part <<< width + Bits.low width field := Nat.mod_eq_of_lt whole
    have none : Bits.ofNat 0 0 = [] := rfl
    simp only [appendWithin, finished, dite_true, bits, Array.toList_push, Bits.ofBytes,
      List.flatMap_append, List.flatMap_cons, List.flatMap_nil, List.append_nil, byte, joined,
      none, List.append_assoc]
  · simp only [appendWithin, finished, dite_false, bits, joined, List.append_assoc]

@[simp] theorem bits_appendField (buffer : BitBuffer) (value width : Nat) :
    (buffer.appendField value width).bits = buffer.bits ++ Bits.ofNat width value := by
  fun_induction appendField buffer value width with
  | case1 => simp [Bits.ofNat]
  | case2 buffer width _ taken ih =>
    have whole : taken + (width - taken) = width := by
      have : taken ≤ width := Nat.min_le_right _ _
      omega
    rw [ih, bits_appendWithin, List.append_assoc, ← Bits.ofNat_add, whole]

theorem appendBit_eq_appendField (buffer : BitBuffer) (bit : Bool) :
    buffer.appendBit bit = buffer.appendField bit.toNat 1 := by
  have within := buffer.used_lt
  have taken : min (8 - buffer.used) 1 = 1 := by omega
  have shifted := Bits.shiftLeft_one_add_low buffer.part bit
  have all : bit.toNat >>> 0 = bit.toNat := rfl
  rw [appendField, if_neg (by decide), appendField, if_pos (by omega)]
  simp only [taken, Nat.sub_self, all]
  by_cases finished : buffer.used = 7
  · have filled : buffer.used + 1 = 8 := by omega
    simp only [appendBit, finished, dite_true, appendWithin, shifted]
  · have open' : ¬buffer.used + 1 = 8 := by omega
    simp only [appendBit, finished, dite_false, appendWithin, open', shifted]

@[simp] theorem bits_appendBit (buffer : BitBuffer) (bit : Bool) :
    (buffer.appendBit bit).bits = buffer.bits ++ [bit] := by
  rw [appendBit_eq_appendField, bits_appendField]
  cases bit <;> rfl

@[simp] theorem bits_appendUnary (buffer : BitBuffer) (ones : Nat) :
    (buffer.appendUnary ones).bits = buffer.bits ++ List.replicate ones true ++ [false] := by
  have run (count : Nat) : Bits.ofNat count (1 <<< count - 1) = List.replicate count true := by
    have all (width : Nat) (le : width ≤ count) :
        Bits.ofNat width (1 <<< count - 1) = List.replicate width true := by
      induction width with
      | zero => rfl
      | succ width ih =>
        have top : (1 <<< count - 1).testBit width = true := by
          rw [Nat.shiftLeft_eq, Nat.one_mul, Nat.testBit_two_pow_sub_one]
          exact decide_eq_true le
        rw [Bits.ofNat, ih (by omega), top, List.replicate_succ]
    exact all count (Nat.le_refl _)
  fun_induction appendUnary buffer ones with
  | case1 buffer ones =>
    have halved : (1 <<< ones - 1) <<< 1 >>> 1 = 1 <<< ones - 1 := Nat.shiftLeft_shiftRight _ _
    have even : Bits.ofNat 1 ((1 <<< ones - 1) <<< 1) = [false] := by
      simp [Bits.ofNat, Nat.shiftLeft_eq]
    rw [bits_appendField, Bits.ofNat_add, halved, run, even, List.append_assoc]
  | case2 buffer ones large ih =>
    have split : List.replicate ones true =
        List.replicate 63 true ++ List.replicate (ones - 63) true := by
      rw [List.replicate_append_replicate]
      congr 1
      omega
    rw [ih, bits_appendField, run, split]
    simp only [List.append_assoc]

end BitBuffer

end GolombSet
