import GolombSet.Proofs.Builder.Determinism
import GolombSet.Proofs.Builder.Size
import GolombSet.Proofs.Filter.Extension
import GolombSet.Proofs.Filter.Truncation

set_option autoImplicit false

namespace GolombSet.Builder

theorem containsAny_build {builder : Builder} {fresh key : Key} {built : Built}
    (done : (builder.build fresh).1 = .ok built) (kept : (builder.build fresh).2.key = some key)
    {item : Bytes} (member : item ∈ builder.items.toList) {batch : List Bytes}
    (chosen : item ∈ batch) : built.filter.containsAny key batch = .ok true := by
  obtain ⟨accepted, few, filter⟩ := build_eq_ok done
  have same : builder.key.getD fresh = key := by
    rw [after_build, if_pos accepted] at kept
    exact Option.some.inj kept
  rw [filter, same]
  refine (RawFilter.containsAny_eq_true_iff _ _ batch).mpr ⟨item, chosen, ?_⟩
  exact contains_ofItems key builder.parameter _ few item member

theorem answers_of_longer_data (filter : Filter) (suffix : Bytes) (key : Key) (item : Bytes)
    (batch : List Bytes) :
    filter.values.places <+: (filter.extend suffix).values.places ∧
      (filter.values.toList.getLast? ≠ some (.error .endOfStream) →
        ∀ calls,
          ((filter.extend suffix).values.after calls).next.1 =
              (filter.values.after calls).next.1 ∧
            ((filter.extend suffix).values.after calls).sizeHint =
              (filter.values.after calls).sizeHint) ∧
      (filter.contains key item ≠ .error .endOfStream →
        (filter.extend suffix).contains key item = filter.contains key item) ∧
      (filter.containsAny key batch ≠ .error .endOfStream →
        (filter.extend suffix).containsAny key batch = filter.containsAny key batch) ∧
      ∀ (builder : Builder) (fresh used : Key) (built : Built),
        (builder.build fresh).1 = .ok built → (builder.build fresh).2.key = some used →
        ∀ added ∈ builder.items.toList, ∀ size,
          let cut := built.filter.truncate size
          (cut.contains used added = .ok true ∨ cut.contains used added = .error .endOfStream) ∧
            ∀ batch : List Bytes, added ∈ batch →
              cut.containsAny used batch = .ok true ∨
                cut.containsAny used batch = .error .endOfStream := by
  refine ⟨filter.places_extend suffix, filter.next_after_extend suffix,
    filter.contains_extend suffix key item, filter.containsAny_extend suffix key batch, ?_⟩
  intro builder fresh used built done kept added member size cut
  have batches (batch : List Bytes) (chosen : added ∈ batch) :=
    built.filter.containsAny_truncate size used batch
      (containsAny_build done kept member chosen)
  refine ⟨?_, batches⟩
  rw [← Filter.containsAny_singleton]
  exact batches [added] (List.mem_singleton.mpr rfl)

theorem answers_of_longer_data_whole_and_cut :
    let whole : Filter := ⟨4, ⟨2, by decide⟩, [0x22, 0x72]⟩
    let zeros : Key := ⟨List.replicate 16 0, rfl⟩
    let builder : Builder := ⟨some zeros, ⟨32, by decide⟩, #[[1], [2, 3]], none⟩
    whole.values.toList.getLast? ≠ some (.error .endOfStream) ∧
      ((whole.extend [0xff]).values.after 3).next.1 = some (.ok 15) ∧
      ∃ built, (builder.build zeros).1 = .ok built ∧
        (builder.build zeros).2.key = some zeros ∧
        let cut := built.filter.truncate 3
        cut.contains zeros [1] = .ok true ∨ cut.contains zeros [1] = .error .endOfStream := by
  intro whole zeros builder
  have ending : whole.values.toList.getLast? ≠ some (.error .endOfStream) := by
    have all : whole.values.toList = [.ok 1, .ok 1, .ok 6, .ok 15] := by decide +kernel
    simp [all]
  have last : (whole.values.after 3).next.1 = some (.ok 15) := by decide +kernel
  obtain ⟨-, same, -, -, cuts⟩ := answers_of_longer_data whole [0xff] zeros [1] []
  obtain ⟨log, built⟩ := builder.build_of_accepted zeros rfl (by decide)
  have done := congrArg Prod.fst built
  have kept : (builder.build zeros).2.key = some zeros := by
    rw [built]
    rfl
  have member : [1] ∈ builder.items.toList := List.mem_cons_self ..
  exact ⟨ending, (same ending 3).1.trans last, _, done, kept,
    (cuts builder zeros zeros _ done kept [1] member 3).1⟩

theorem iteration_of_truncated {builder : Builder} {fresh : Key} {built : Built}
    (done : (builder.build fresh).1 = .ok built) {size : Nat}
    (short : size < built.filter.data.length) :
    let filter := built.filter
    let p := filter.parameter
    let cut := filter.truncate size
    let places := filter.values.places
    let n := builder.items.toList.dedup.length
    Filter.ofParts filter.count p.value (filter.data.take size) = .ok cut ∧
      filter.count.toNat = n ∧ places.length = n ∧ filter.values.toList = places.map .ok ∧
      ∃ whole < n,
        (∀ index, index < whole ↔ encodedLength p.toNat (places.take (index + 1)) ≤ 8 * size) ∧
        ∀ calls, (cut.values.after calls).next.1 =
          ((places.take whole).map Except.ok ++ [.error .endOfStream])[calls]? := by
  obtain ⟨-, few, same⟩ := build_eq_ok done
  obtain ⟨filter, log⟩ := built
  subst same
  intro filter p cut places n
  have count : filter.count.toNat = n := toNat_ofNat_length _ few
  have length : places.length = n := (Filter.length_places_ofItems _ _ _ few).trans count
  have sorted : places = sortedPlaces (builder.key.getD fresh) builder.parameter
      builder.items.toList := Filter.places_ofItems _ _ _ few
  obtain ⟨last, complete, -⟩ := Filter.yields_ofItems (builder.key.getD fresh) builder.parameter
    builder.items.toList few
  rw [← sorted] at complete
  have begun : 8 * size < encodedLength p.toNat places := by
    have bytes : filter.data.length = (encodedLength p.toNat places + 7) / 8 := by
      rw [sorted]
      exact Filter.length_data_ofItems _ _ _
    have short : size < filter.data.length := short
    omega
  obtain ⟨whole, fewer, exact, results⟩ := Filter.next_after_truncate complete begun
  refine ⟨(Filter.ofParts_eq_ok_iff _ _ _ cut).mpr ⟨rfl, rfl, rfl⟩, count, length, ?_,
    whole, length ▸ fewer, exact, results⟩
  simpa using complete.toList_eq

theorem iteration_of_truncated_without_last_byte :
    let zeros : Key := ⟨List.replicate 16 0, rfl⟩
    let builder : Builder := ⟨some zeros, ⟨32, by decide⟩, #[[1], [2, 3]], none⟩
    ∃ built, (builder.build zeros).1 = .ok built ∧ 8 < built.filter.data.length ∧
      let cut := built.filter.truncate 8
      ∃ whole < 2, (cut.values.after whole).next.1 = some (.error .endOfStream) ∧
        (cut.values.after (whole + 1)).next.1 = none := by
  intro zeros builder
  have entries : builder.items.toList.dedup.length = 2 := by decide
  obtain ⟨log, built⟩ := builder.build_of_accepted zeros rfl (by decide)
  let filter := Filter.ofItems zeros builder.parameter builder.items.toList
  have done : (builder.build zeros).1 = .ok ⟨filter, log⟩ := congrArg Prod.fst built
  have short : 8 < filter.data.length := by
    have bytes : filter.data.length = _ := Filter.length_data_ofItems _ _ _
    have least := mul_succ_le_encodedLength builder.parameter.toNat
      (sortedPlaces zeros builder.parameter builder.items.toList)
    rw [length_sortedPlaces, entries, show builder.parameter.toNat = 32 from rfl] at least
    rw [show builder.parameter.toNat = 32 from rfl] at bytes
    omega
  obtain ⟨-, -, length, -, whole, fewer, -, results⟩ := iteration_of_truncated done short
  rw [entries] at length fewer
  have kept : min whole 2 = whole := by omega
  refine ⟨⟨filter, log⟩, done, short, whole, fewer, ?_, ?_⟩
  · rw [results]
    simp [length, kept]
  · rw [results]
    simp [length, kept]

end GolombSet.Builder
