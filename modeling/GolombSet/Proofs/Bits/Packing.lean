import GolombSet.Proofs.Bits.RoundTrip
import Mathlib.Algebra.Group.Nat.Defs

set_option autoImplicit false

namespace GolombSet

namespace Bits

theorem ofBytes_cons (byte : UInt8) (rest : Bytes) :
    ofBytes (byte :: rest) = ofNat 8 byte.toNat ++ ofBytes rest :=
  List.flatMap_cons

theorem length_of_ofBytes {bytes : Bytes} {bits rest : Bits}
    (split : ofBytes bytes = bits ++ rest) : bits.length + rest.length = 8 * bytes.length := by
  rw [← List.length_append, ← split, length_ofBytes]

theorem take_drop_ofBytes (bytes : Bytes) (i : Nat) (inside : i < bytes.length) :
    ((ofBytes bytes).drop (8 * i)).take 8 = ofNat 8 (bytes[i]).toNat := by
  induction bytes generalizing i with
  | nil => contradiction
  | cons byte rest ih =>
    cases i with
    | zero => simp [ofBytes_cons]
    | succ i =>
      have next : 8 * (i + 1) = (ofNat 8 byte.toNat).length + 8 * i := by
        rw [length_ofNat]
        omega
      rw [ofBytes_cons, next, List.drop_length_add_append, ih i (by simpa using inside)]
      rfl

theorem take_drop_append_replicate (bits : Bits) {padding : Nat} (start : Nat)
    (inside : start + 8 ≤ bits.length + padding) :
    ((bits ++ List.replicate padding false).drop start).take 8 =
      (bits.drop start).take 8 ++
        List.replicate (8 - ((bits.drop start).take 8).length) false := by
  have zeros : min (8 - (bits.length - start)) (padding - (start - bits.length)) =
      8 - min 8 (bits.length - start) := by omega
  rw [List.drop_append, List.take_append, List.drop_replicate, List.take_replicate,
    List.length_drop, List.length_take, List.length_drop, zeros]

theorem eq_pack_of_ofBytes {bytes : Bytes} {bits : Bits} {padding : Nat}
    (padded : ofBytes bytes = bits ++ List.replicate padding false) (few : padding < 8) :
    bytes = pack bits := by
  have lengths := length_of_ofBytes padded
  rw [List.length_replicate] at lengths
  have count : bytes.length = (bits.length + 7) / 8 := by omega
  apply List.ext_getElem
  · simp [pack, count]
  · intro i inside _
    have byte := take_drop_ofBytes bytes i inside
    rw [padded, take_drop_append_replicate bits (8 * i) (by omega)] at byte
    have value : low 8 (bytes[i]).toNat = (bytes[i]).toNat := Nat.mod_eq_of_lt (bytes[i]).toNat_lt
    simp only [pack, List.getElem_map, List.getElem_range, byte, toNat_ofNat, value,
      UInt8.ofNat_toNat]

theorem ofBytes_injective {bytes others : Bytes} (same : ofBytes bytes = ofBytes others) :
    bytes = others := by
  have packed (bytes : Bytes) : bytes = pack (ofBytes bytes) :=
    eq_pack_of_ofBytes (List.append_nil _).symm (by decide : 0 < 8)
  rw [packed bytes, packed others, same]

end Bits

namespace BitBuffer

theorem toBytes_eq_pack (buffer : BitBuffer) : buffer.toBytes = Bits.pack buffer.bits :=
  Bits.eq_pack_of_ofBytes buffer.ofBytes_toBytes buffer.padding_lt

theorem ext_bits {buffer other : BitBuffer} (same : buffer.bits = other.bits) : buffer = other := by
  have lengths := congrArg List.length same
  rw [length_bits, length_bits, length, length] at lengths
  have within := buffer.used_lt
  have within' := other.used_lt
  have used : buffer.used = other.used := by omega
  have size : (Bits.ofBytes buffer.full.toList).length =
      (Bits.ofBytes other.full.toList).length := by
    simp only [Bits.length_ofBytes, Array.length_toList]
    omega
  obtain ⟨full, part⟩ := List.append_inj same size
  -- The part has no bits but those that are used, so it is the number that they make.
  have whole (buffer : BitBuffer) : Bits.low buffer.used buffer.part = buffer.part :=
    Nat.mod_eq_of_lt buffer.part_lt
  have value := congrArg Bits.toNat part
  rw [Bits.toNat_ofNat, Bits.toNat_ofNat, whole, whole] at value
  have bytes := Array.toList_inj.mp (Bits.ofBytes_injective full)
  cases buffer
  cases other
  simp only [BitBuffer.mk.injEq]
  exact ⟨bytes, value, used⟩

theorem eq_iff_bits {buffer other : BitBuffer} : buffer = other ↔ buffer.bits = other.bits :=
  ⟨congrArg bits, ext_bits⟩

theorem eq_iff_toBytes {buffer other : BitBuffer} :
    buffer = other ↔ buffer.toBytes = other.toBytes ∧ buffer.length = other.length := by
  constructor
  · rintro rfl
    exact ⟨rfl, rfl⟩
  · rintro ⟨bytes, lengths⟩
    have padded := other.ofBytes_toBytes
    rw [← bytes, buffer.ofBytes_toBytes] at padded
    rw [← length_bits, ← length_bits] at lengths
    exact ext_bits (List.append_inj_left padded lengths)

theorem toBytes_append_false (buffer : BitBuffer) (unfinished : buffer.length % 8 ≠ 0) :
    (buffer.append (.bit false)).toBytes = buffer.toBytes := by
  have padded := buffer.ofBytes_toBytes
  have lengths := Bits.length_of_ofBytes padded
  rw [List.length_replicate, length_bits] at lengths
  obtain ⟨fewer, count⟩ := Nat.exists_eq_succ_of_ne_zero (show buffer.padding ≠ 0 by omega)
  have few := buffer.padding_lt
  have bits : (buffer.append (.bit false)).bits = buffer.bits ++ [false] :=
    buffer.bits_append (.bit false)
  rw [count, List.replicate_succ, List.append_cons, ← bits] at padded
  rw [toBytes_eq_pack]
  exact (Bits.eq_pack_of_ofBytes padded (by omega)).symm

theorem append_ne (buffer : BitBuffer) (bit : Bool) : buffer.append (.bit bit) ≠ buffer := by
  intro same
  have lengths := congrArg (fun buffer => buffer.bits.length) same
  simp [Symbol.bits] at lengths

theorem appendAll_refines (capacity capacity' : Nat) (symbols symbols' : List Symbol) :
    let write := (withCapacity capacity).appendAll
    let write' := (withCapacity capacity').appendAll
    let bits := symbols.flatMap Symbol.bits
    let bits' := symbols'.flatMap Symbol.bits
    (write symbols).length = bits.length ∧
      (write symbols).toBytes = Bits.pack bits ∧
      (write symbols).toBytes.length = (bits.length + 7) / 8 ∧
      (∃ padding < 8,
        Bits.ofBytes (write symbols).toBytes = bits ++ List.replicate padding false) ∧
      (write symbols = write' symbols' ↔ bits = bits') ∧
      ((write symbols).toBytes = (write' symbols').toBytes ∧
        (write symbols).length = (write' symbols').length ↔ bits = bits') ∧
      (bits.length % 8 ≠ 0 →
        (write (symbols ++ [.bit false])).toBytes = (write symbols).toBytes ∧
          write (symbols ++ [.bit false]) ≠ write symbols) ∧
      ∃ one other, (write one).toBytes = (write' other).toBytes ∧ write one ≠ write' other := by
  intro write write' bits bits'
  have held (capacity : Nat) (symbols : List Symbol) :
      ((withCapacity capacity).appendAll symbols).bits = symbols.flatMap Symbol.bits := by simp
  have length : (write symbols).length = bits.length := by rw [← length_bits, held]
  have packed : (write symbols).toBytes = Bits.pack bits := by rw [toBytes_eq_pack, held]
  have same : write symbols = write' symbols' ↔ bits = bits' := by rw [eq_iff_bits, held, held]
  have longer (symbols : List Symbol) :
      write (symbols ++ [.bit false]) = (write symbols).append (.bit false) := by
    simp [write, appendAll]
  refine ⟨length, packed, by simp [packed, Bits.pack], ?_, same, ?_, ?_, ?_⟩
  · refine ⟨(write symbols).padding, padding_lt _, ?_⟩
    rw [ofBytes_toBytes, held]
  · rw [← eq_iff_toBytes, same]
  · intro unfinished
    rw [longer]
    exact ⟨toBytes_append_false _ (length ▸ unfinished), append_ne _ false⟩
  · -- One bit and the same bit with a zero after it.
    have single : write' [.bit true] = write [.bit true] := ext_bits (by rw [held, held])
    have zero := longer [.bit true]
    have short : (write [.bit true]).length % 8 ≠ 0 := by
      rw [← length_bits, held]
      decide
    refine ⟨[.bit true, .bit false], [.bit true], ?_, ?_⟩
    · rw [single]
      exact (congrArg toBytes zero).trans (toBytes_append_false _ short)
    · rw [single]
      exact zero ▸ append_ne _ false

end BitBuffer

end GolombSet
