import GolombSet.Symbol

set_option autoImplicit false

namespace GolombSet

theorem Bits.ofNat_zero (width : Nat) : Bits.ofNat width 0 = List.replicate width false := by
  induction width with
  | zero => rfl
  | succ width ih => simp [Bits.ofNat, ih, List.replicate_succ]

namespace BitBuffer

def padding (buffer : BitBuffer) : Nat :=
  (8 - buffer.used) % 8

theorem padding_lt (buffer : BitBuffer) : buffer.padding < 8 :=
  Nat.mod_lt _ (by decide)

theorem ofNat_part_shiftLeft (buffer : BitBuffer) :
    Bits.ofNat 8 (buffer.part <<< (8 - buffer.used)) =
      Bits.ofNat buffer.used buffer.part ++ List.replicate (8 - buffer.used) false := by
  have within := buffer.used_lt
  have whole : buffer.used + (8 - buffer.used) = 8 := by omega
  have nothing : Bits.low (8 - buffer.used) 0 = 0 := Nat.zero_mod _
  have joined := Bits.ofNat_shiftLeft_add buffer.used (8 - buffer.used) buffer.part 0
  rwa [whole, nothing, Nat.add_zero, Bits.ofNat_zero] at joined

theorem toNat_ofNat_part_shiftLeft (buffer : BitBuffer) :
    (UInt8.ofNat (buffer.part <<< (8 - buffer.used))).toNat =
      buffer.part <<< (8 - buffer.used) := by
  have within := buffer.used_lt
  have bound := buffer.part_append_lt (8 - buffer.used) 0
  have whole : buffer.used + (8 - buffer.used) = 8 := by omega
  have nothing : Bits.low (8 - buffer.used) 0 = 0 := Nat.zero_mod _
  rw [whole, nothing, Nat.add_zero] at bound
  exact Nat.mod_eq_of_lt bound

theorem ofBytes_toBytes (buffer : BitBuffer) :
    Bits.ofBytes buffer.toBytes = buffer.bits ++ List.replicate buffer.padding false := by
  by_cases finished : buffer.used = 0
  · simp [toBytes, bits, padding, finished, Bits.ofNat]
  · have within := buffer.used_lt
    have rest : buffer.padding = 8 - buffer.used := by
      unfold padding
      omega
    have last : Bits.ofBytes [UInt8.ofNat (buffer.part <<< (8 - buffer.used))] =
        Bits.ofNat buffer.used buffer.part ++ List.replicate (8 - buffer.used) false := by
      simp only [Bits.ofBytes, List.flatMap_cons, List.flatMap_nil, List.append_nil,
        toNat_ofNat_part_shiftLeft, ofNat_part_shiftLeft]
    have split : Bits.ofBytes buffer.toBytes = Bits.ofBytes buffer.full.toList ++
        Bits.ofBytes [UInt8.ofNat (buffer.part <<< (8 - buffer.used))] := by
      simp only [toBytes, finished, if_false, Bits.ofBytes, List.flatMap_append]
    rw [split, last, rest, bits, List.append_assoc]

end BitBuffer

end GolombSet
