import GolombSet.Proofs.Builder.Assembly
import GolombSet.Proofs.Filter.Reencoding

set_option autoImplicit false

namespace GolombSet.Filter

theorem reencode_ofItems (key : Key) (parameter : Parameter) (items : List Bytes)
    (few : items.dedup.length < 2 ^ 32) :
    (ofItems key parameter items).reencode = ofItems key parameter items := by
  rw [reencode, places_ofItems key parameter items few]
  rfl

theorem reencode_exact (filter : Filter) (complete : filter.Complete) :
    let kept := filter.codedLength
    filter.reencode.data = Bytes.clearFrom kept (filter.data.take ((kept + 7) / 8)) ∧
      (filter.reencode = filter ↔ filter.data.length = (kept + 7) / 8 ∧
        ∀ bit ∈ (Bits.ofBytes filter.data).drop kept, bit = false) ∧
      (∃! data, let other : Filter := { filter with data := data }
        other.values.toList = filter.values.toList ∧ other.Canonical) ∧
      ∀ (builder : Builder) (fresh : Key) (built : Built),
        (builder.build fresh).1 = .ok built →
          built.filter.Complete ∧ built.filter.reencode = built.filter := by
  intro kept
  refine ⟨complete.data_reencode_eq, ?_, complete.existsUnique_canonical, ?_⟩
  · rw [complete.reencode_eq_iff]
    exact ⟨fun canonical => ⟨canonical.length_data, canonical.padding⟩,
      fun ⟨length, padding⟩ => ⟨length, padding⟩⟩
  · intro builder fresh built done
    obtain ⟨-, few, filter⟩ := Builder.build_eq_ok done
    rw [filter]
    exact ⟨length_places_ofItems _ _ _ few, reencode_ofItems _ _ _ few⟩

theorem reencode_exact_of_spoiled_padding :
    let filter : Filter := ⟨4, ⟨2, by decide⟩, [0x22, 0x73, 0xab]⟩
    let zeros : Key := ⟨List.replicate 16 0, rfl⟩
    let builder : Builder := ⟨some zeros, ⟨32, by decide⟩, #[[1], [2, 3]], none⟩
    filter.Complete ∧ filter.codedLength = 15 ∧ filter.reencode.data = [0x22, 0x72] ∧
      filter.reencode ≠ filter ∧
      ∃ built, (builder.build zeros).1 = .ok built ∧ built.filter.reencode = built.filter := by
  intro filter zeros builder
  have complete : filter.Complete := by
    rw [Complete]
    decide +kernel
  have position : filter.codedLength = 15 := by decide +kernel
  obtain ⟨data, same, -, fixed⟩ := reencode_exact filter complete
  have long : filter.data.length ≠ (filter.codedLength + 7) / 8 := by
    rw [position]
    decide
  obtain ⟨log, built⟩ := builder.build_of_accepted zeros rfl (by decide)
  have done := congrArg Prod.fst built
  refine ⟨complete, position, ?_, fun equal => long (same.mp equal).1, _, done,
    (fixed builder zeros _ done).2⟩
  rw [data, position]
  decide

end GolombSet.Filter
