import GolombSet.Proofs.Bits.Packing
import GolombSet.Proofs.Filter.Iteration
import Mathlib.Logic.ExistsUnique

set_option autoImplicit false

namespace GolombSet

def Bytes.clearFrom : Nat → Bytes → Bytes
  | _, [] => []
  | kept, byte :: rest =>
    UInt8.ofNat (byte.toNat >>> (8 - kept) <<< (8 - kept)) :: clearFrom (kept - 8) rest

namespace Bits

theorem ofNat_shiftRight_shiftLeft (kept value : Nat) :
    ofNat 8 (value >>> (8 - kept) <<< (8 - kept)) =
      (ofNat 8 value).take kept ++ List.replicate (8 - kept) false := by
  by_cases within : kept ≤ 8
  · have whole : kept + (8 - kept) = 8 := by omega
    have cleared := ofNat_shiftLeft_add kept (8 - kept) (value >>> (8 - kept)) 0
    have split := ofNat_add kept (8 - kept) value
    have nothing : low (8 - kept) 0 = 0 := Nat.zero_mod _
    rw [whole, nothing, Nat.add_zero, ofNat_zero] at cleared
    rw [whole] at split
    rw [cleared, split, List.take_left' (length_ofNat _ _)]
  · have none : 8 - kept = 0 := by omega
    rw [none, List.take_of_length_le (by rw [length_ofNat]; omega)]
    exact (List.append_nil _).symm

theorem ofBytes_clearFrom (kept : Nat) (bytes : Bytes) :
    ofBytes (bytes.clearFrom kept) =
      (ofBytes bytes).take kept ++ List.replicate (8 * bytes.length - kept) false := by
  induction bytes generalizing kept with
  | nil => simp [Bytes.clearFrom, ofBytes]
  | cons byte rest ih =>
    have small : byte.toNat >>> (8 - kept) <<< (8 - kept) < 256 := by
      rw [Nat.shiftRight_eq_div_pow, Nat.shiftLeft_eq]
      exact Nat.lt_of_le_of_lt (Nat.div_mul_le_self _ _) byte.toNat_lt
    have value : (UInt8.ofNat (byte.toNat >>> (8 - kept) <<< (8 - kept))).toNat =
        byte.toNat >>> (8 - kept) <<< (8 - kept) := Nat.mod_eq_of_lt small
    rw [Bytes.clearFrom, ofBytes_cons, ofBytes_cons, ih, value, ofNat_shiftRight_shiftLeft,
      List.take_append, length_ofNat, List.length_cons]
    by_cases within : kept ≤ 8
    · have zeros : 8 * (rest.length + 1) - kept = 8 - kept + (8 * rest.length - (kept - 8)) := by
        omega
      have none : kept - 8 = 0 := by omega
      rw [zeros, none, ← List.replicate_append_replicate]
      simp
    · have zeros : 8 * (rest.length + 1) - kept = 8 * rest.length - (kept - 8) := by omega
      have none : 8 - kept = 0 := by omega
      rw [zeros, none]
      simp

theorem ofBytes_take (size : Nat) (bytes : Bytes) :
    ofBytes (bytes.take size) = (ofBytes bytes).take (8 * size) := by
  induction bytes generalizing size with
  | nil => simp [ofBytes]
  | cons byte rest ih =>
    cases size with
    | zero => rfl
    | succ size =>
      have next : 8 * (size + 1) = (ofNat 8 byte.toNat).length + 8 * size := by
        rw [length_ofNat]
        omega
      rw [List.take_succ_cons, ofBytes_cons, ofBytes_cons, ih, next, List.take_length_add_append]

end Bits

namespace Values

variable {values final : Values} {places : List UInt64} {fault : Option FilterError}

theorem places_congr {other : Values} (same : other.toList = values.toList) :
    other.places = values.places := by
  rw [Values.places, Values.places, same]

theorem sub_eq_of_sum {last value gap : UInt64} (sum : value.toNat = last.toNat + gap.toNat) :
    value - last = gap := by
  have ordered : last ≤ value := by
    rw [UInt64.le_iff_toNat_le]
    omega
  apply UInt64.toNat_inj.mp
  rw [UInt64.toNat_sub_of_le _ _ ordered]
  omega

theorem Yields.coded (yields : values.Yields places fault final) (small : values.p.toNat ≤ 64) :
    values.cursor.bits = (gaps values.last places).flatMap
        (fun gap => Rice.code values.p.toNat gap.toNat) ++ final.cursor.bits ∧
      final.cursor.position + final.cursor.remaining =
        values.cursor.position + values.cursor.remaining := by
  induction yields with
  | ended | failed => exact ⟨rfl, rfl⟩
  | @passed values after final value places fault step later ih =>
    obtain ⟨-, ⟨gap, read, sum⟩, rfl⟩ := next_eq_ok step
    obtain ⟨rest, moved⟩ := ih small
    constructor
    · rw [bits_of_readRice small read, rest, gaps, sub_eq_of_sum sum,
        List.flatMap_cons, List.append_assoc]
    · rw [moved]
      exact (values.cursor.readRice_follows values.p.toNat).moved

end Values

namespace Filter

def Complete (filter : Filter) : Prop :=
  filter.values.places.length = filter.count.toNat

/-- Where the decoder stands after all places. -/
def codedLength (filter : Filter) : Nat :=
  (filter.values.after filter.count.toNat).cursor.position

def reencode (filter : Filter) : Filter :=
  ofSorted filter.count filter.parameter filter.values.places

def codes (filter : Filter) : Bits :=
  (gaps 0 filter.values.places).flatMap fun gap => Rice.code filter.parameter.toNat gap.toNat

structure Canonical (filter : Filter) : Prop where
  length_data : filter.data.length = (filter.codedLength + 7) / 8
  padding : ∀ bit ∈ (Bits.ofBytes filter.data).drop filter.codedLength, bit = false

variable {filter : Filter}

theorem Complete.exists_yields (complete : filter.Complete) :
    ∃ final, filter.values.Yields filter.values.places none final ∧
      final.cursor.position = filter.codedLength := by
  obtain ⟨places, fault, final, yields⟩ := filter.values.exists_yields
  obtain ⟨deltas, rest, decodes⟩ := yields.exists_decodes filter.p_values_le
  rw [Complete, yields.places_eq] at complete
  have sound : fault = none := decodes.complete.mpr (decodes.length_eq.symm.trans complete)
  subst sound
  refine ⟨final, yields.places_eq.symm ▸ yields, ?_⟩
  rw [codedLength, ← complete, yields.after_eq]

theorem Complete.ofBytes_eq (complete : filter.Complete) :
    ∃ rest, Bits.ofBytes filter.data = filter.codes ++ rest ∧
      filter.codes.length = filter.codedLength ∧
      filter.codedLength + rest.length = 8 * filter.data.length := by
  obtain ⟨final, yields, position⟩ := complete.exists_yields
  obtain ⟨coded, moved⟩ := yields.coded filter.p_values_le
  have split : Bits.ofBytes filter.data = filter.codes ++ final.cursor.bits := coded
  have total := Bits.length_of_ofBytes split
  have start : filter.values.cursor.position + filter.values.cursor.bits.length =
      0 + (Bits.ofBytes filter.data).length := rfl
  rw [← BitCursor.length_bits, ← BitCursor.length_bits, position, start, Nat.zero_add,
    Bits.length_ofBytes] at moved
  exact ⟨final.cursor.bits, split, by omega, moved⟩

theorem ofBytes_reencode (filter : Filter) :
    ∃ padding < 8, Bits.ofBytes filter.reencode.data =
      filter.codes ++ List.replicate padding false := by
  refine ⟨(encodeGaps filter.parameter.toNat filter.values.places).padding,
    BitBuffer.padding_lt _, ?_⟩
  rw [reencode, ofSorted, BitBuffer.ofBytes_toBytes, bits_encodeGaps]
  rfl

theorem Complete.data_reencode_eq (complete : filter.Complete) :
    filter.reencode.data =
      Bytes.clearFrom filter.codedLength (filter.data.take ((filter.codedLength + 7) / 8)) := by
  obtain ⟨rest, split, length, total⟩ := complete.ofBytes_eq
  have count : (filter.data.take ((filter.codedLength + 7) / 8)).length =
      (filter.codedLength + 7) / 8 := by
    rw [List.length_take]
    omega
  have cleared := Bits.ofBytes_clearFrom filter.codedLength
    (filter.data.take ((filter.codedLength + 7) / 8))
  rw [count, Bits.ofBytes_take, List.take_take, split, Nat.min_eq_left (by omega), ← length,
    List.take_left' rfl, length] at cleared
  -- Both sides are the codes and fewer than eight zeros.
  obtain ⟨padding, few, padded⟩ := filter.ofBytes_reencode
  rw [Bits.eq_pack_of_ofBytes padded few, Bits.eq_pack_of_ofBytes cleared (by omega)]

theorem Complete.reencode_eq_iff (complete : filter.Complete) :
    filter.reencode = filter ↔ filter.Canonical := by
  obtain ⟨rest, split, length, total⟩ := complete.ofBytes_eq
  obtain ⟨padding, few, padded⟩ := filter.ofBytes_reencode
  constructor
  · intro same
    rw [same] at padded
    have lengths := Bits.length_of_ofBytes padded
    rw [length, List.length_replicate] at lengths
    refine ⟨by omega, ?_⟩
    rw [padded, ← length, List.drop_left' rfl]
    exact fun bit member => List.eq_of_mem_replicate member
  · rintro ⟨tight, zeros⟩
    rw [split, ← length, List.drop_left' rfl] at zeros
    rw [List.eq_replicate_of_mem zeros] at split
    have data := Bits.eq_pack_of_ofBytes split (by omega)
    rw [← Bits.eq_pack_of_ofBytes padded few] at data
    have parts : filter.reencode = { filter with data := filter.reencode.data } := rfl
    rw [parts, ← data]

theorem Complete.toList_eq (complete : filter.Complete) :
    filter.values.toList = filter.values.places.map Except.ok := by
  obtain ⟨final, yields, -⟩ := complete.exists_yields
  simpa using yields.toList_eq

theorem Complete.toList_reencode (complete : filter.Complete) :
    filter.reencode.values.toList = filter.values.toList := by
  obtain ⟨final, yields, -⟩ := complete.exists_yields
  obtain ⟨final', again, -⟩ := yields_ofSorted filter.count filter.parameter filter.values.places
    complete.symm (List.Pairwise.of_cons yields.sorted)
  rw [complete.toList_eq, reencode, again.toList_eq]
  simp

theorem Complete.existsUnique_canonical (complete : filter.Complete) :
    ∃! data, let other : Filter := { filter with data := data }
      other.values.toList = filter.values.toList ∧ other.Canonical := by
  -- What is decoded again has the same places, and so the same encoding.
  have again (data : Bytes)
      (same : (Filter.values { filter with data := data }).toList = filter.values.toList) :
      Complete { filter with data := data } ∧
        reencode { filter with data := data } = filter.reencode := by
    have places := Values.places_congr same
    constructor
    · rw [Complete, places]
      exact complete
    · rw [reencode, reencode, places]
  refine ⟨filter.reencode.data, ⟨complete.toList_reencode, ?_⟩, ?_⟩
  · obtain ⟨complete', same⟩ := again filter.reencode.data complete.toList_reencode
    exact complete'.reencode_eq_iff.mp same
  · rintro data ⟨decoded, canonical⟩
    obtain ⟨complete', same⟩ := again data decoded
    have fixed := complete'.reencode_eq_iff.mpr canonical
    rw [same] at fixed
    exact (congrArg Filter.data fixed).symm

end Filter

end GolombSet
