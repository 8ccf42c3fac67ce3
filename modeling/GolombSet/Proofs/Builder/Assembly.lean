import GolombSet.Proofs.Builder.Distinct
import GolombSet.Proofs.Filter.Iteration
import Mathlib.Algebra.Group.Nat.Defs

set_option autoImplicit false

namespace GolombSet

def sortedPlaces (key : Key) (parameter : Parameter) (items : List Bytes) : List UInt64 :=
  let entries := distinctItems items
  (entries.map (place key (parameter.range (UInt32.ofNat entries.length)))).mergeSort

def Filter.ofItems (key : Key) (parameter : Parameter) (items : List Bytes) : Filter :=
  Filter.ofSorted (UInt32.ofNat (distinctItems items).length) parameter
    (sortedPlaces key parameter items)

theorem toNat_ofNat_length (items : List Bytes) (few : items.dedup.length < 2 ^ 32) :
    (UInt32.ofNat (distinctItems items).length).toNat = items.dedup.length := by
  rw [length_distinctItems]
  exact Nat.mod_eq_of_lt few

theorem Parameter.range_ofNat (parameter : Parameter) (items : List Bytes)
    (few : items.dedup.length < 2 ^ 32) :
    parameter.range (UInt32.ofNat (distinctItems items).length) =
      UInt64.ofNat (items.dedup.length * 2 ^ parameter.toNat) := by
  have value := parameter.toNat_range (UInt32.ofNat (distinctItems items).length)
  rw [toNat_ofNat_length items few, Nat.shiftLeft_eq] at value
  rw [← value, UInt64.ofNat_toNat]

theorem sortedPlaces_perm (key : Key) (parameter : Parameter) (items : List Bytes)
    (few : items.dedup.length < 2 ^ 32) :
    (sortedPlaces key parameter items).Perm (items.dedup.map
      (place key (UInt64.ofNat (items.dedup.length * 2 ^ parameter.toNat)))) := by
  rw [← parameter.range_ofNat items few]
  exact (List.mergeSort_perm _ _).trans ((distinctItems_perm items).map _)

theorem length_sortedPlaces (key : Key) (parameter : Parameter) (items : List Bytes) :
    (sortedPlaces key parameter items).length = items.dedup.length := by
  simp [sortedPlaces, length_distinctItems]

theorem pairwise_sortedPlaces (key : Key) (parameter : Parameter) (items : List Bytes) :
    (sortedPlaces key parameter items).Pairwise (· ≤ ·) :=
  pairwise_mergeSort _

theorem mem_sortedPlaces (key : Key) (parameter : Parameter) (items : List Bytes) (item : Bytes)
    (member : item ∈ items) :
    place key (Filter.ofItems key parameter items).range item ∈
      sortedPlaces key parameter items := by
  have entry := (mem_distinctItems item items).mpr member
  exact List.mem_mergeSort.mpr (List.mem_map_of_mem entry)

theorem lt_of_mem_sortedPlaces (key : Key) (parameter : Parameter) (items : List Bytes)
    (few : items.dedup.length < 2 ^ 32) (value : UInt64)
    (member : value ∈ sortedPlaces key parameter items) :
    value.toNat < items.dedup.length * 2 ^ parameter.toNat := by
  have range := parameter.toNat_range (UInt32.ofNat (distinctItems items).length)
  rw [toNat_ofNat_length items few, Nat.shiftLeft_eq] at range
  obtain ⟨item, chosen, rfl⟩ := List.mem_map.mp (List.mem_mergeSort.mp member)
  -- A range of zero has no place below it, so there has to be an item.
  have nonempty : 0 < items.dedup.length := by
    rw [← length_distinctItems]
    exact List.length_pos_of_mem chosen
  rw [← range]
  apply reduce_lt
  rw [range]
  exact Nat.mul_pos nonempty (Nat.two_pow_pos _)

theorem Filter.yields_ofItems (key : Key) (parameter : Parameter) (items : List Bytes)
    (few : items.dedup.length < 2 ^ 32) :
    ∃ final, (Filter.ofItems key parameter items).values.Yields
        (sortedPlaces key parameter items) none final ∧
      final.cursor.position =
        (encodeGaps parameter.toNat (sortedPlaces key parameter items)).length ∧
      final.cursor.bits = List.replicate
        (encodeGaps parameter.toNat (sortedPlaces key parameter items)).padding false := by
  apply Filter.yields_ofSorted
  · rw [toNat_ofNat_length items few, length_sortedPlaces]
  · exact pairwise_sortedPlaces key parameter items

theorem Filter.places_ofItems (key : Key) (parameter : Parameter) (items : List Bytes)
    (few : items.dedup.length < 2 ^ 32) :
    (Filter.ofItems key parameter items).values.places = sortedPlaces key parameter items := by
  obtain ⟨final, yields, -⟩ := Filter.yields_ofItems key parameter items few
  exact yields.places_eq

theorem Filter.length_places_ofItems (key : Key) (parameter : Parameter) (items : List Bytes)
    (few : items.dedup.length < 2 ^ 32) :
    (Filter.ofItems key parameter items).values.places.length =
      (Filter.ofItems key parameter items).count.toNat := by
  rw [Filter.places_ofItems key parameter items few, length_sortedPlaces, Filter.ofItems,
    Filter.ofSorted, toNat_ofNat_length items few]

namespace Builder

theorem assemble_eq_ok (builder : Builder) (key : Key)
    (few : builder.items.toList.dedup.length < 2 ^ 32) :
    ∃ log, builder.assemble key =
      .ok ⟨Filter.ofItems key builder.parameter builder.items.toList, log⟩ := by
  have counted : (distinctItems builder.items.toList).length < UInt32.size := by
    rw [length_distinctItems]
    exact few
  simp only [assemble, if_pos counted]
  exact ⟨_, rfl⟩

theorem resolveKey_of_accepted (builder : Builder) (fresh : Key)
    (accepted : builder.rejected = none) :
    builder.resolveKey fresh =
      (.ok (builder.key.getD fresh), { builder with key := some (builder.key.getD fresh) }) := by
  simp [resolveKey, accepted]

theorem build_of_accepted (builder : Builder) (fresh : Key)
    (accepted : builder.rejected = none)
    (few : builder.items.toList.dedup.length < 2 ^ 32) :
    ∃ log, builder.build fresh =
      (.ok ⟨Filter.ofItems (builder.key.getD fresh) builder.parameter builder.items.toList, log⟩,
        { builder with key := some (builder.key.getD fresh) }) := by
  let after := { builder with key := some (builder.key.getD fresh) }
  obtain ⟨log, assembled⟩ := after.assemble_eq_ok (builder.key.getD fresh) few
  refine ⟨log, ?_⟩
  rw [build, resolveKey_of_accepted builder fresh accepted]
  exact congrArg (fun result => (result, after)) assembled

theorem assemble_eq_error (builder : Builder) (key : Key)
    (many : ¬builder.items.toList.dedup.length < 2 ^ 32) :
    builder.assemble key = .error (.tooManyEntries builder.items.toList.dedup.length) := by
  rw [← length_distinctItems] at many ⊢
  simp only [assemble]
  exact if_neg many

theorem build_eq_ok {builder : Builder} {fresh : Key} {built : Built}
    (done : (builder.build fresh).1 = .ok built) :
    builder.rejected = none ∧ builder.items.toList.dedup.length < 2 ^ 32 ∧
      built.filter =
        Filter.ofItems (builder.key.getD fresh) builder.parameter builder.items.toList := by
  have accepted : builder.rejected = none := by
    cases rejected : builder.rejected with
    | none => rfl
    | some p => simp [build, resolveKey, rejected] at done
  have few : builder.items.toList.dedup.length < 2 ^ 32 := by
    by_cases few : builder.items.toList.dedup.length < 2 ^ 32
    · exact few
    · let after := { builder with key := some (builder.key.getD fresh) }
      have failed := after.assemble_eq_error (builder.key.getD fresh) few
      rw [build, resolveKey_of_accepted builder fresh accepted] at done
      exact nomatch failed.symm.trans done
  obtain ⟨log, result⟩ := builder.build_of_accepted fresh accepted few
  rw [result] at done
  cases done
  exact ⟨accepted, few, rfl⟩

theorem withKeyAndParameter_eq (key : Key) (p : UInt8) (small : p ≤ 32) :
    withKeyAndParameter key p = ⟨some key, ⟨p, small⟩, #[], none⟩ := by
  simp [withKeyAndParameter, withKey, setKey, setParameter, Parameter.check, empty, small]

theorem addAll_eq (builder : Builder) (items : List Bytes) :
    builder.addAll items = { builder with items := builder.items ++ items } := by
  unfold addAll
  induction items generalizing builder with
  | nil => simp
  | cons item items ih => simp [ih, add]

theorem build_withKeyAndParameter (key fresh : Key) {p : UInt8} (small : p ≤ 32)
    {items : List Bytes} (few : items.dedup.length < 2 ^ 32) :
    ∃ log, (((withKeyAndParameter key p).addAll items).build fresh).1 =
      .ok ⟨Filter.ofItems key ⟨p, small⟩ items, log⟩ := by
  have state : (withKeyAndParameter key p).addAll items =
      ⟨some key, ⟨p, small⟩, items.toArray, none⟩ := by
    simp [addAll_eq, withKeyAndParameter_eq key p small]
  obtain ⟨log, built⟩ :=
    build_of_accepted ⟨some key, ⟨p, small⟩, items.toArray, none⟩ fresh rfl (by simpa using few)
  refine ⟨log, ?_⟩
  rw [state, built]
  rfl

theorem decode_build (key fresh : Key) (p : UInt8) (items : List Bytes) (small : p ≤ 32)
    (few : items.dedup.length < 2 ^ 32) :
    ∃ built places,
      (((withKeyAndParameter key p).addAll items).build fresh).1 = .ok built ∧
      built.filter.count.toNat = items.dedup.length ∧ built.filter.parameter.value = p ∧
      places.Pairwise (· ≤ ·) ∧
      places.Perm (items.dedup.map
        (place key (UInt64.ofNat (items.dedup.length * 2 ^ p.toNat)))) ∧
      (∀ value ∈ places, value.toNat < items.dedup.length * 2 ^ p.toNat) ∧
      (∀ limit, built.filter.values.take limit = (places.take limit).map .ok) ∧
      places.length = items.dedup.length ∧
      let final := (built.filter.values.after items.dedup.length).cursor
      final.position = (encodeGaps p.toNat places).length ∧ final.remaining < 8 ∧
        ∀ bit ∈ final.bits, bit = false := by
  let parameter : Parameter := ⟨p, small⟩
  obtain ⟨log, built⟩ := build_withKeyAndParameter key fresh small few
  obtain ⟨final, yields, position, unread⟩ := Filter.yields_ofItems key parameter items few
  have count := length_sortedPlaces key parameter items
  have reached : (Filter.ofItems key parameter items).values.after items.dedup.length = final := by
    rw [← count]
    exact yields.after_eq
  have left : final.cursor.remaining < 8 := by
    rw [← BitCursor.length_bits, unread, List.length_replicate]
    exact BitBuffer.padding_lt _
  refine ⟨⟨Filter.ofItems key parameter items, log⟩, sortedPlaces key parameter items, built,
    toNat_ofNat_length items few, rfl, pairwise_sortedPlaces key parameter items,
    sortedPlaces_perm key parameter items few, lt_of_mem_sortedPlaces key parameter items few,
    ?_, count, ?_⟩
  · intro limit
    rw [yields.take_eq]
    simp
  · rw [reached]
    refine ⟨position, left, ?_⟩
    intro bit member
    rw [unread] at member
    exact List.eq_of_mem_replicate member

theorem decode_build_largest_parameter :
    let zeros : Key := ⟨List.replicate 16 0, rfl⟩
    let items : List Bytes := [[1], [2, 3], [1]]
    (32 : UInt8) ≤ 32 ∧ items.dedup.length < 2 ^ 32 ∧
      ∃ (built : Built) (places : List UInt64),
        (((withKeyAndParameter zeros 32).addAll items).build zeros).1 = .ok built ∧
        built.filter.values.take 5 = (places.take 5).map .ok ∧
        places.Perm [place zeros 8589934592 [2, 3], place zeros 8589934592 [1]] ∧
        (built.filter.values.after 2).cursor.remaining < 8 := by
  intro zeros items
  have small : (32 : UInt8) ≤ 32 := by decide
  have entries : items.dedup = [[2, 3], [1]] := by decide
  have few : items.dedup.length < 2 ^ 32 := by simp [entries]
  obtain ⟨built, places, done, -, -, -, same, -, decoded, -, -, left, -⟩ :=
    decode_build zeros zeros 32 items small few
  rw [entries] at same left
  exact ⟨small, few, built, places, done, decoded 5, same, left⟩

end Builder

end GolombSet
