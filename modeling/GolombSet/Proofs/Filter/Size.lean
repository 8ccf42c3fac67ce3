import GolombSet.Proofs.Bits.Codes
import GolombSet.Proofs.Bits.Packing
import GolombSet.Proofs.Filter.Decoding

set_option autoImplicit false

namespace GolombSet

theorem length_encodeGaps (p : Nat) (values : List UInt64) :
    (encodeGaps p values).length = encodedLength p values := by
  have all (codes : List UInt64) (start : Nat) :
      start + (codes.flatMap fun gap => Rice.code p gap.toNat).length =
        codes.foldl (fun total gap => total + Rice.length p gap.toNat) start := by
    induction codes generalizing start with
    | nil => rfl
    | cons gap codes ih =>
      rw [List.foldl_cons, ← ih, List.flatMap_cons, List.length_append, Rice.length_code,
        Nat.add_assoc]
  rw [← BitBuffer.length_bits, bits_encodeGaps, ← Nat.zero_add (List.length _), all]
  rfl

theorem length_codes (p : Nat) (values : List UInt64) :
    ((gaps 0 values).flatMap fun gap => Rice.code p gap.toNat).length = encodedLength p values := by
  rw [← bits_encodeGaps, BitBuffer.length_bits, length_encodeGaps]

theorem length_gaps (last : UInt64) (values : List UInt64) :
    (gaps last values).length = values.length := by
  induction values generalizing last with
  | nil => rfl
  | cons value values ih => rw [gaps, List.length_cons, ih, List.length_cons]

theorem gaps_append (last : UInt64) (values others : List UInt64) :
    gaps last (values ++ others) = gaps last values ++ gaps (values.getLastD last) others := by
  induction values generalizing last with
  | nil => rfl
  | cons value values ih => rw [List.cons_append, gaps, gaps, ih, List.getLastD_cons]; rfl

theorem zipWith_gaps (last : UInt64) (values : List UInt64)
    (sorted : (last :: values).Pairwise (· ≤ ·)) :
    List.zipWith (fun before gap => before.toNat + gap.toNat) (last :: values) (gaps last values) =
      values.map UInt64.toNat := by
  induction values generalizing last with
  | nil => rfl
  | cons value values ih =>
    have ordered : last ≤ value := List.rel_of_pairwise_cons sorted (List.mem_cons_self ..)
    rw [gaps, List.zipWith_cons_cons, ih value sorted.of_cons, Values.gap_add last value ordered,
      List.map_cons]

theorem length_codes_le (p : Nat) (last : UInt64) (values : List UInt64)
    (sorted : (last :: values).Pairwise (· ≤ ·)) :
    ((gaps last values).flatMap fun gap => Rice.code p gap.toNat).length + last.toNat / 2 ^ p ≤
      values.length * (p + 1) + (values.getLastD last).toNat / 2 ^ p := by
  induction values generalizing last with
  | nil => simp [gaps]
  | cons value values ih =>
    have ordered : last ≤ value := List.rel_of_pairwise_cons sorted (List.mem_cons_self ..)
    have later := ih value sorted.of_cons
    have quotients : last.toNat / 2 ^ p + (value - last).toNat / 2 ^ p ≤
        (last.toNat + (value - last).toNat) / 2 ^ p := Nat.div_add_div_le_add_div
    rw [Values.gap_add last value ordered] at quotients
    rw [gaps, List.flatMap_cons, List.length_append, Rice.length_code, Rice.length,
      Nat.shiftRight_eq_div_pow, List.getLastD_cons, List.length_cons, Nat.succ_mul]
    omega

theorem mul_succ_le_encodedLength (p : Nat) (values : List UInt64) :
    values.length * (p + 1) ≤ encodedLength p values := by
  have least := Rice.length_mul_le_length_codes p ((gaps 0 values).map UInt64.toNat)
  rw [List.length_map, length_gaps, List.flatMap_map] at least
  rw [← length_codes]
  exact least

theorem encodedLength_lt {p : Nat} {values : List UInt64} (nonempty : 0 < values.length)
    (sorted : values.Pairwise (· ≤ ·))
    (inside : ∀ value ∈ values, value.toNat < values.length * 2 ^ p) :
    encodedLength p values < values.length * (p + 2) := by
  have fromZero : (0 :: values).Pairwise (· ≤ ·) :=
    List.pairwise_cons.mpr ⟨fun _ _ => UInt64.zero_le, sorted⟩
  have most := length_codes_le p 0 values fromZero
  have last : values.getLastD 0 ∈ values := by
    rw [List.getLastD_eq_getLast?,
      List.getLast?_eq_some_getLast (List.ne_nil_of_length_pos nonempty)]
    exact List.getLast_mem _
  have few : (values.getLastD 0).toNat / 2 ^ p < values.length := by
    apply Nat.div_lt_of_lt_mul
    rw [Nat.mul_comm]
    exact inside _ last
  rw [length_codes, UInt64.toNat_zero, Nat.zero_div, Nat.mul_add] at most
  rw [Nat.mul_add]
  omega

theorem Filter.length_data_ofSorted (count : UInt32) (parameter : Parameter)
    (values : List UInt64) :
    (ofSorted count parameter values).data.length =
      (encodedLength parameter.toNat values + 7) / 8 := by
  have packed := (encodeGaps parameter.toNat values).toBytes_eq_pack
  rw [ofSorted, packed, Bits.pack, List.length_map, List.length_range, BitBuffer.length_bits,
    length_encodeGaps]

end GolombSet
