import GolombSet.Proofs.Builder.Assembly
import GolombSet.Proofs.Filter.Size

set_option autoImplicit false

namespace GolombSet

theorem Filter.length_data_ofItems (key : Key) (parameter : Parameter) (items : List Bytes) :
    (ofItems key parameter items).data.length =
      (encodedLength parameter.toNat (sortedPlaces key parameter items) + 7) / 8 :=
  length_data_ofSorted _ _ _

namespace Builder

theorem size_of_build (key fresh : Key) (p : UInt8) (items : List Bytes) (small : p ≤ 32)
    (nonempty : 0 < items.dedup.length) (few : items.dedup.length < 2 ^ 32) :
    let n := items.dedup.length
    let parameter : Parameter := ⟨p, small⟩
    let range := parameter.range (UInt32.ofNat n)
    ∃ built values,
      (((withKeyAndParameter key p).addAll items).build fresh).1 = .ok built ∧
      built.filter = Filter.ofSorted (UInt32.ofNat n) parameter values ∧
      built.filter.count.toNat = n ∧
      range.toNat = n * 2 ^ p.toNat ∧ n * 2 ^ p.toNat < 2 ^ 64 ∧
      (∀ item, (place key range item).toNat =
        (itemHash key item).toNat * (n * 2 ^ p.toNat) / 2 ^ 64) ∧
      values.Perm (items.dedup.map (place key range)) ∧
      (∀ value ∈ values, value.toNat < n * 2 ^ p.toNat) ∧
      values.Pairwise (· ≤ ·) ∧
      List.zipWith (fun before gap => before.toNat + gap.toNat) (0 :: values) (gaps 0 values) =
        values.map UInt64.toNat ∧
      let bits := encodedLength p.toNat values
      (encodeGaps p.toNat values).length = bits ∧
      n * (p.toNat + 1) ≤ bits ∧ bits ≤ n * (p.toNat + 2) - 1 ∧ bits < 2 ^ 64 ∧
      built.filter.data.length = (bits + 7) / 8 := by
  intro n parameter range
  let values := sortedPlaces key parameter items
  obtain ⟨log, built⟩ := build_withKeyAndParameter key fresh small few
  have count : (UInt32.ofNat n).toNat = n := Nat.mod_eq_of_lt few
  have size : range.toNat = n * 2 ^ p.toNat := by
    rw [parameter.toNat_range, count, Nat.shiftLeft_eq]
    rfl
  have filter : Filter.ofItems key parameter items =
      Filter.ofSorted (UInt32.ofNat n) parameter values := by
    rw [Filter.ofItems, length_distinctItems]
  have places : values.Perm (items.dedup.map (place key range)) := by
    have perm := sortedPlaces_perm key parameter items few
    rwa [← parameter.range_ofNat items few, length_distinctItems] at perm
  have length : values.length = n := length_sortedPlaces key parameter items
  have inside := lt_of_mem_sortedPlaces key parameter items few
  have sorted := pairwise_sortedPlaces key parameter items
  have least := mul_succ_le_encodedLength p.toNat values
  have most : encodedLength p.toNat values < values.length * (p.toNat + 2) :=
    encodedLength_lt (length ▸ nonempty) sorted (length ▸ inside)
  rw [length] at least most
  have bounded : n * (p.toNat + 2) ≤ n * 34 := by
    have limit := parameter.toNat_le
    exact Nat.mul_le_mul_left n (Nat.add_le_add_right limit 2)
  refine ⟨_, values, built, filter, ?_, size, size ▸ range.toNat_lt, ?_, places, inside, sorted,
    ?_, length_encodeGaps _ _, least, Nat.le_sub_one_of_lt most, by omega,
    Filter.length_data_ofItems key parameter items⟩
  · rw [filter]
    exact count
  · intro item
    rw [← size]
    exact toNat_reduce _ _
  · exact zipWith_gaps 0 values (List.pairwise_cons.mpr ⟨fun _ _ => UInt64.zero_le, sorted⟩)

theorem size_of_build_largest_parameter :
    let zeros : Key := ⟨List.replicate 16 0, rfl⟩
    let items : List Bytes := [[1], [2, 3], [1]]
    (32 : UInt8) ≤ 32 ∧ 0 < items.dedup.length ∧ items.dedup.length < 2 ^ 32 ∧
      ∃ (built : Built) (values : List UInt64),
        (((withKeyAndParameter zeros 32).addAll items).build zeros).1 = .ok built ∧
        place zeros 8589934592 [1] ∈ values ∧
        (place zeros 8589934592 [1]).toNat < 2 * 2 ^ 32 ∧
        66 ≤ encodedLength 32 values ∧ encodedLength 32 values ≤ 67 ∧
        built.filter.data.length = 9 := by
  intro zeros items
  have small : (32 : UInt8) ≤ 32 := by decide
  have entries : items.dedup = [[2, 3], [1]] := by decide
  have nonempty : 0 < items.dedup.length := by simp [entries]
  have few : items.dedup.length < 2 ^ 32 := by simp [entries]
  obtain ⟨built, values, done, -, -, -, -, -, same, inside, -, -, -, least, most, -, bytes⟩ :=
    size_of_build zeros zeros 32 items small nonempty few
  rw [entries] at same inside least most
  have member : place zeros 8589934592 [1] ∈ values :=
    same.mem_iff.mpr (List.mem_cons_of_mem _ (List.mem_cons_self ..))
  have least : 66 ≤ encodedLength 32 values := least
  have most : encodedLength 32 values ≤ 67 := most
  have bytes : built.filter.data.length = (encodedLength 32 values + 7) / 8 := bytes
  exact ⟨small, nonempty, few, built, values, done, member, inside _ member, least, most, by omega⟩

end Builder

end GolombSet
