import GolombSet.Proofs.Buckets
import GolombSet.Proofs.Builder.Assembly
import GolombSet.Proofs.Filter.Search

set_option autoImplicit false

namespace GolombSet

namespace Filter

theorem containsHash_ofItems (key : Key) (parameter : Parameter) (items : List Bytes)
    (few : items.dedup.length < 2 ^ 32) (hash : UInt64) :
    (ofItems key parameter items).containsHash hash =
      .ok (decide (reduce hash (ofItems key parameter items).range ∈
        (ofItems key parameter items).values.places)) := by
  obtain ⟨final, yields, -⟩ := yields_ofItems key parameter items few
  rw [containsHash_eq yields, Values.settle_none, yields.places_eq]

theorem lt_range_ofItems (key : Key) (parameter : Parameter) (items : List Bytes)
    (few : items.dedup.length < 2 ^ 32) (place : UInt64)
    (member : place ∈ (ofItems key parameter items).values.places) :
    place < (ofItems key parameter items).range := by
  rw [places_ofItems key parameter items few] at member
  rw [UInt64.lt_iff_toNat_lt, toNat_range, ofItems, ofSorted, toNat_ofNat_length items few]
  exact lt_of_mem_sortedPlaces key parameter items few place member

theorem range_ofItems (key : Key) (parameter : Parameter) (items : List Bytes)
    (few : items.dedup.length < 2 ^ 32) :
    (ofItems key parameter items).range =
      UInt64.ofNat (items.dedup.length * 2 ^ parameter.toNat) :=
  parameter.range_ofNat items few

theorem length_dedup_places_ofItems (key : Key) (parameter : Parameter) (items : List Bytes)
    (few : items.dedup.length < 2 ^ 32) :
    (ofItems key parameter items).values.places.dedup.length =
      (items.dedup.map (place key (ofItems key parameter items).range)).dedup.length := by
  rw [places_ofItems key parameter items few, range_ofItems key parameter items few]
  exact (sortedPlaces_perm key parameter items few).dedup.length_eq

end Filter

theorem Builder.hits_of_build (builder : Builder) (fresh : Key) (built : Built)
    (done : (builder.build fresh).1 = .ok built) (nonempty : 0 < built.filter.count.toNat) :
    let filter := built.filter
    let n := filter.count.toNat
    let p := filter.parameter.toNat
    let stored := filter.values.places.dedup.length
    let hits := {hash | filter.containsHash hash = .ok true}.ncard
    (∀ key item, filter.contains key item = filter.containsHash (itemHash key item)) ∧
      (∀ hash, ∃ answer, filter.containsHash hash = .ok answer) ∧
      stored = (builder.items.toList.dedup.map
        (place (builder.key.getD fresh) filter.range)).dedup.length ∧
      stored * (2 ^ 64 / (n * 2 ^ p)) ≤ hits ∧
      hits ≤ stored * (2 ^ 64 ⌈/⌉ (n * 2 ^ p)) ∧
      hits ≤ 2 ^ (64 - p) + n - 1 := by
  obtain ⟨filter, log⟩ := built
  obtain ⟨-, few, rfl⟩ := build_eq_ok done
  intro filter n p stored hits
  have answer (hash : UInt64) : filter.containsHash hash =
      .ok (decide (reduce hash filter.range ∈ filter.values.places)) :=
    Filter.containsHash_ofItems _ _ _ few hash
  have inside (place : UInt64) (member : place ∈ filter.values.places.dedup) :
      place < filter.range :=
    Filter.lt_range_ofItems _ _ _ few place (List.mem_dedup.mp member)
  have count : filter.values.places.length = n := Filter.length_places_ofItems _ _ _ few
  have set : {hash | filter.containsHash hash = .ok true} =
      {hash | reduce hash filter.range ∈ filter.values.places.dedup} := by
    ext hash
    simp [answer]
  obtain ⟨low, high⟩ := ncard_buckets _ (List.nodup_dedup _) inside
  rw [← set, Filter.toNat_range] at low high
  refine ⟨fun key item => rfl, fun hash => ⟨_, answer hash⟩,
    Filter.length_dedup_places_ofItems _ _ _ few, low, high, ?_⟩
  calc hits ≤ stored * (2 ^ 64 ⌈/⌉ (n * 2 ^ p)) := high
    _ ≤ n * (2 ^ 64 ⌈/⌉ (n * 2 ^ p)) :=
      Nat.mul_le_mul_right _ (count ▸ (List.dedup_sublist _).length_le)
    _ ≤ 2 ^ (64 - p) + n - 1 :=
      mul_ceilDiv_le nonempty filter.parameter.toNat_le_64

theorem Builder.hits_of_build_two_items :
    let zeros : Key := ⟨List.replicate 16 0, rfl⟩
    let builder : Builder := ⟨some zeros, ⟨32, by decide⟩, #[[1], [2, 3], [1]], none⟩
    ∃ built, (builder.build zeros).1 = .ok built ∧ 0 < built.filter.count.toNat ∧
      let hits := {hash | built.filter.containsHash hash = .ok true}.ncard
      2 ^ 32 ≤ hits ∧ hits ≤ 2 ^ 32 + 1 := by
  intro zeros builder
  have entries : builder.items.toList.dedup = [[2, 3], [1]] := by decide
  have few : builder.items.toList.dedup.length < 2 ^ 32 := by
    rw [entries]
    decide
  obtain ⟨log, built⟩ := builder.build_of_accepted zeros rfl few
  let filter := Filter.ofItems zeros ⟨32, by decide⟩ builder.items.toList
  have done : (builder.build zeros).1 = .ok ⟨filter, log⟩ := congrArg Prod.fst built
  have count : filter.count.toNat = 2 :=
    (toNat_ofNat_length _ few).trans (congrArg List.length entries)
  have nonempty : 0 < filter.count.toNat := by
    rw [count]
    exact Nat.two_pos
  obtain ⟨-, -, stored, least, -, most⟩ :=
    builder.hits_of_build zeros ⟨filter, log⟩ done nonempty
  have two : [place zeros 8589934592 [2, 3], place zeros 8589934592 [1]].dedup.length = 2 := by
    decide +kernel
  have range := Filter.range_ofItems zeros ⟨32, by decide⟩ builder.items.toList few
  rw [stored, entries, range, entries, count] at least
  have least : [place zeros 8589934592 [2, 3], place zeros 8589934592 [1]].dedup.length *
      (2 ^ 64 / (2 * 2 ^ 32)) ≤ {hash | filter.containsHash hash = .ok true}.ncard := least
  rw [two] at least
  rw [count] at most
  exact ⟨_, done, nonempty, least, most⟩

end GolombSet
