import GolombSet.Proofs.Places
import Mathlib.Algebra.Order.Floor.Div
import Mathlib.Data.Set.Card
import Mathlib.Order.Interval.Finset.Nat

set_option autoImplicit false

namespace GolombSet

def bucket (range place : UInt64) : Set UInt64 :=
  {hash | reduce hash range = place}

/-- The first hash with this place or a later one. -/
def bucketStart (range place : Nat) : Nat :=
  (place * 2 ^ 64) ⌈/⌉ range

instance finite_uint64 : Finite UInt64 :=
  Finite.of_injective UInt64.toFin fun _ _ => UInt64.toFin_inj.mp

section

variable {range : Nat} (positive : 0 < range)

include positive

theorem bucketStart_le_iff (place hash : Nat) :
    bucketStart range place ≤ hash ↔ place ≤ hash * range / 2 ^ 64 := by
  rw [bucketStart, ceilDiv_le_iff_le_mul positive, Nat.le_div_iff_mul_le (Nat.two_pow_pos 64),
    Nat.mul_comm range]

theorem lt_bucketStart_iff (place hash : Nat) :
    hash < bucketStart range place ↔ hash * range / 2 ^ 64 < place := by
  rw [← Nat.not_le, bucketStart_le_iff positive, Nat.not_le]

theorem le_mul_bucketStart (place : Nat) : place * 2 ^ 64 ≤ range * bucketStart range place :=
  (ceilDiv_le_iff_le_mul positive).mp (Nat.le_refl _)

theorem bucketStart_add_le (place : Nat) :
    bucketStart range place + 2 ^ 64 / range ≤ bucketStart range (place + 1) := by
  have next := le_mul_bucketStart positive (place + 1)
  have share : range * (2 ^ 64 / range) ≤ 2 ^ 64 := Nat.mul_div_le _ _
  rw [Nat.succ_mul] at next
  have room : 2 ^ 64 / range ≤ bucketStart range (place + 1) :=
    Nat.le_of_mul_le_mul_left (share.trans ((Nat.le_add_left _ _).trans next)) positive
  apply Nat.add_le_of_le_sub room
  rw [bucketStart, ceilDiv_le_iff_le_mul positive, Nat.mul_sub]
  calc place * 2 ^ 64 = place * 2 ^ 64 + 2 ^ 64 - 2 ^ 64 := (Nat.add_sub_cancel ..).symm
    _ ≤ range * bucketStart range (place + 1) - range * (2 ^ 64 / range) :=
      tsub_le_tsub next share

theorem bucketStart_succ_le (place : Nat) :
    bucketStart range (place + 1) ≤ bucketStart range place + 2 ^ 64 ⌈/⌉ range := by
  have start := le_mul_bucketStart positive place
  have share : 2 ^ 64 ≤ range * (2 ^ 64 ⌈/⌉ range) :=
    (ceilDiv_le_iff_le_mul positive).mp (Nat.le_refl _)
  rw [bucketStart, ceilDiv_le_iff_le_mul positive, Nat.mul_add, Nat.succ_mul]
  exact Nat.add_le_add start share

end

variable {range place : UInt64}

theorem image_toNat_bucket (inside : place < range) :
    UInt64.toNat '' bucket range place =
      Finset.Ico (bucketStart range.toNat place.toNat)
        (bucketStart range.toNat (place.toNat + 1)) := by
  have bound := UInt64.lt_iff_toNat_lt.mp inside
  have positive : 0 < range.toNat := by omega
  -- No bucket reaches beyond the last hash.
  have last : bucketStart range.toNat (place.toNat + 1) ≤ 2 ^ 64 := by
    rw [bucketStart_le_iff positive, Nat.mul_div_cancel_left _ (Nat.two_pow_pos 64)]
    exact bound
  ext number
  rw [Finset.coe_Ico, Set.mem_Ico, bucketStart_le_iff positive]
  constructor
  · rintro ⟨hash, rfl, rfl⟩
    rw [lt_bucketStart_iff positive, toNat_reduce]
    exact ⟨Nat.le_refl _, Nat.lt_succ_self _⟩
  · rintro ⟨low, high⟩
    have value : (UInt64.ofNat number).toNat = number := Nat.mod_eq_of_lt (high.trans_le last)
    rw [lt_bucketStart_iff positive] at high
    refine ⟨UInt64.ofNat number, UInt64.toNat_inj.mp ?_, value⟩
    rw [toNat_reduce, value]
    exact Nat.le_antisymm (Nat.le_of_lt_succ high) low

theorem ncard_bucket (inside : place < range) :
    (bucket range place).ncard =
      bucketStart range.toNat (place.toNat + 1) - bucketStart range.toNat place.toNat := by
  rw [← Set.ncard_image_of_injective _ fun _ _ => UInt64.toNat_inj.mp, image_toNat_bucket inside,
    Set.ncard_coe_finset, Nat.card_Ico]

theorem le_ncard_bucket (inside : place < range) :
    2 ^ 64 / range.toNat ≤ (bucket range place).ncard := by
  have bound := UInt64.lt_iff_toNat_lt.mp inside
  rw [ncard_bucket inside]
  exact Nat.le_sub_of_add_le' (bucketStart_add_le (by omega) place.toNat)

theorem ncard_bucket_le (inside : place < range) :
    (bucket range place).ncard ≤ 2 ^ 64 ⌈/⌉ range.toNat := by
  have bound := UInt64.lt_iff_toNat_lt.mp inside
  rw [ncard_bucket inside]
  exact Nat.sub_le_iff_le_add'.mpr (bucketStart_succ_le (by omega) place.toNat)

theorem ceilDiv_le_div_add_one {whole parts : Nat} (positive : 0 < parts) :
    whole ⌈/⌉ parts ≤ whole / parts + 1 := by
  rw [ceilDiv_le_iff_le_mul positive]
  exact Nat.le_of_lt (Nat.lt_mul_div_succ whole positive)

theorem ncard_bucket_eq (inside : place < range) :
    (bucket range place).ncard = 2 ^ 64 / range.toNat ∨
      (bucket range place).ncard = 2 ^ 64 ⌈/⌉ range.toNat := by
  have bound := UInt64.lt_iff_toNat_lt.mp inside
  have low := le_ncard_bucket inside
  have high := ncard_bucket_le inside
  -- Between an equal share rounded down and the same rounded up there is no other number.
  have near : 2 ^ 64 ⌈/⌉ range.toNat ≤ 2 ^ 64 / range.toNat + 1 :=
    ceilDiv_le_div_add_one (by omega)
  rcases Nat.eq_or_lt_of_le low with same | more
  · exact .inl same.symm
  · exact .inr (Nat.le_antisymm high (near.trans more))

theorem bucket_nonempty (inside : place < range) : (bucket range place).Nonempty := by
  have bound := UInt64.lt_iff_toNat_lt.mp inside
  have share : 0 < 2 ^ 64 / range.toNat :=
    Nat.div_pos (Nat.le_of_lt range.toNat_lt) (by omega)
  apply Set.nonempty_of_ncard_ne_zero
  exact Nat.ne_of_gt (Nat.lt_of_lt_of_le share (le_ncard_bucket inside))

theorem ncard_bucket_le_succ {other : UInt64} (inside : place < range) (inside' : other < range) :
    (bucket range place).ncard ≤ (bucket range other).ncard + 1 := by
  have bound := UInt64.lt_iff_toNat_lt.mp inside
  calc (bucket range place).ncard
      ≤ 2 ^ 64 ⌈/⌉ range.toNat := ncard_bucket_le inside
    _ ≤ 2 ^ 64 / range.toNat + 1 := ceilDiv_le_div_add_one (by omega)
    _ ≤ (bucket range other).ncard + 1 := Nat.add_le_add_right (le_ncard_bucket inside') 1

theorem ncard_buckets (places : List UInt64) (distinct : places.Nodup)
    (inside : ∀ place ∈ places, place < range) :
    places.length * (2 ^ 64 / range.toNat) ≤ {hash | reduce hash range ∈ places}.ncard ∧
      {hash | reduce hash range ∈ places}.ncard ≤ places.length * (2 ^ 64 ⌈/⌉ range.toNat) := by
  induction places with
  | nil => simp
  | cons place places ih =>
    obtain ⟨fresh, distinct⟩ := List.nodup_cons.mp distinct
    obtain ⟨low, high⟩ :=
      ih distinct fun later member => inside later (List.mem_cons_of_mem _ member)
    have here := inside place (List.mem_cons_self ..)
    have split : {hash | reduce hash range ∈ place :: places} =
        bucket range place ∪ {hash | reduce hash range ∈ places} := by
      ext hash
      simp [bucket]
    have apart : Disjoint (bucket range place) {hash | reduce hash range ∈ places} := by
      rw [Set.disjoint_left]
      rintro hash rfl again
      exact fresh again
    rw [split, Set.ncard_union_eq apart, List.length_cons, Nat.succ_mul, Nat.succ_mul,
      Nat.add_comm (bucket range place).ncard]
    exact ⟨Nat.add_le_add low (le_ncard_bucket here), Nat.add_le_add high (ncard_bucket_le here)⟩

theorem mul_ceilDiv_le {count p : Nat} (positive : 0 < count) (small : p ≤ 64) :
    count * (2 ^ 64 ⌈/⌉ (count * 2 ^ p)) ≤ 2 ^ (64 - p) + count - 1 := by
  have scale : 2 ^ 64 = 2 ^ (64 - p) * 2 ^ p := by rw [← Nat.pow_add, Nat.sub_add_cancel small]
  have share : 2 ^ 64 ⌈/⌉ (count * 2 ^ p) ≤ 2 ^ (64 - p) ⌈/⌉ count := by
    rw [ceilDiv_le_iff_le_mul (Nat.mul_pos positive (Nat.two_pow_pos p)), scale,
      Nat.mul_right_comm]
    exact Nat.mul_le_mul_right _ ((ceilDiv_le_iff_le_mul positive).mp (Nat.le_refl _))
  calc count * (2 ^ 64 ⌈/⌉ (count * 2 ^ p))
      ≤ count * (2 ^ (64 - p) ⌈/⌉ count) := Nat.mul_le_mul_left _ share
    _ ≤ 2 ^ (64 - p) + count - 1 := Nat.mul_div_le _ _

theorem reduce_balanced (range : UInt64) (positive : 0 < range) :
    (∀ hash, reduce hash range < range) ∧
      (∀ hash later, hash ≤ later → reduce hash range ≤ reduce later range) ∧
      (∀ hash wider, range ≤ wider → reduce hash range ≤ reduce hash wider) ∧
      ∀ place < range,
        ((bucket range place).ncard = 2 ^ 64 / range.toNat ∨
          (bucket range place).ncard = 2 ^ 64 ⌈/⌉ range.toNat) ∧
        (∃ hash, reduce hash range = place) ∧
        ∀ other < range, (bucket range place).ncard ≤ (bucket range other).ncard + 1 := by
  refine ⟨fun hash => ?_, fun hash later le => ?_, fun hash wider le => ?_, fun place inside => ?_⟩
  · exact UInt64.lt_iff_toNat_lt.mpr (reduce_lt hash range (UInt64.lt_iff_toNat_lt.mp positive))
  · exact reduce_le_reduce le (UInt64.le_refl range)
  · exact reduce_le_reduce (UInt64.le_refl hash) le
  · exact ⟨ncard_bucket_eq inside, bucket_nonempty inside,
      fun other inside' => ncard_bucket_le_succ inside inside'⟩

theorem reduce_balanced_three_places :
    (0 : UInt64) < 3 ∧ (∀ hash, reduce hash 3 < 3) ∧ (2 : UInt64) < 3 ∧
      ((bucket 3 2).ncard = 6148914691236517205 ∨ (bucket 3 2).ncard = 6148914691236517206) := by
  -- Three does not divide `2 ^ 64`, so the buckets differ.
  have positive : (0 : UInt64) < 3 := by decide
  have inside : (2 : UInt64) < 3 := by decide
  obtain ⟨within, -, -, shares⟩ := reduce_balanced 3 positive
  exact ⟨positive, within, inside, (shares 2 inside).1⟩

end GolombSet
