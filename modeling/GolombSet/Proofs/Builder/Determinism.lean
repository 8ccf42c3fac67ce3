import GolombSet.Proofs.Builder.Runs

set_option autoImplicit false

namespace GolombSet

theorem Filter.ofItems_congr (key : Key) (parameter : Parameter) {items others : List Bytes}
    (same : ∀ item, item ∈ others ↔ item ∈ items) :
    Filter.ofItems key parameter others = Filter.ofItems key parameter items := by
  rw [Filter.ofItems, Filter.ofItems, sortedPlaces, sortedPlaces, distinctItems_congr same]

theorem length_dedup_congr {items others : List Bytes}
    (same : ∀ item, item ∈ others ↔ item ∈ items) :
    others.dedup.length = items.dedup.length := by
  rw [← length_distinctItems, ← length_distinctItems, distinctItems_congr same]

namespace Builder

theorem after_build (builder : Builder) (fresh : Key) :
    (builder.build fresh).2 = { builder with
      key := if builder.rejected = none then some (builder.key.getD fresh) else builder.key } := by
  rw [build_snd]
  obtain ⟨key, parameter, items, rejected⟩ := builder
  cases rejected with
  | none => rfl
  | some p => rfl

theorem build_again (builder : Builder) (fresh later : Key) :
    ((builder.build fresh).2.build later).1 = (builder.build fresh).1 := by
  rw [after_build]
  cases rejected : builder.rejected with
  | none => simp [build, resolveKey, rejected]
  | some p => simp [build, resolveKey, rejected]

theorem build_determined (origin origin' : Origin) (actions actions' : List Action)
    (fresh fresh' later : Key) :
    let left := run origin actions
    let right := run origin' actions'
    (left.rejected = none → right.rejected = none →
        left.key.getD fresh = right.key.getD fresh' → left.parameter = right.parameter →
        (∀ item, item ∈ right.items.toList ↔ item ∈ left.items.toList) →
        left.items.toList.dedup.length < 2 ^ 32 →
        ∃ built built', (left.build fresh).1 = .ok built ∧ (right.build fresh').1 = .ok built' ∧
          built'.filter = built.filter) ∧
      left.items.toList = actions.flatMap Action.items ∧
      (left.build fresh).2 = { left with
        key := if left.rejected = none then some (left.key.getD fresh) else left.key } ∧
      ((left.build fresh).2.build later).1 = (left.build fresh).1 := by
  intro left right
  refine ⟨?_, items_run origin actions, left.after_build fresh, left.build_again fresh later⟩
  intro accepted accepted' sameKey sameParameter sameItems few
  obtain ⟨log, built⟩ := left.build_of_accepted fresh accepted few
  obtain ⟨log', built'⟩ := right.build_of_accepted fresh' accepted'
    (by rwa [length_dedup_congr sameItems])
  refine ⟨_, _, congrArg Prod.fst built, congrArg Prod.fst built', ?_⟩
  rw [← sameKey, ← sameParameter]
  exact Filter.ofItems_congr _ _ sameItems

theorem build_determined_other_order :
    let zeros : Key := ⟨List.replicate 16 0, rfl⟩
    let ones : Key := ⟨List.replicate 16 1, rfl⟩
    let left := run (.withFreshKey zeros (some 7))
      [.add [2], .addAll [[1], [2]], .build ones, .setParameter 20]
    let right := run .withoutKey [.setParameter 20, .add [1], .resolveKey zeros, .add [2]]
    left.rejected = none ∧ right.rejected = none ∧ left.key.getD ones = right.key.getD ones ∧
      left.parameter = right.parameter ∧
      (∀ item, item ∈ right.items.toList ↔ item ∈ left.items.toList) ∧
      left.items.toList.dedup.length < 2 ^ 32 ∧
      ∃ built built', (left.build ones).1 = .ok built ∧ (right.build ones).1 = .ok built' ∧
        built'.filter = built.filter := by
  intro zeros ones left right
  have sameKey : left.key.getD ones = right.key.getD ones := rfl
  have leftItems : left.items.toList = [[2], [1], [2]] := rfl
  have rightItems : right.items.toList = [[1], [2]] := rfl
  have sameItems (item : Bytes) : item ∈ right.items.toList ↔ item ∈ left.items.toList := by
    rw [leftItems, rightItems]
    grind
  have few : left.items.toList.dedup.length < 2 ^ 32 := by
    rw [leftItems]
    decide
  obtain ⟨same, -⟩ := build_determined (.withFreshKey zeros (some 7)) .withoutKey
    [.add [2], .addAll [[1], [2]], .build ones, .setParameter 20]
    [.setParameter 20, .add [1], .resolveKey zeros, .add [2]] ones ones ones
  exact ⟨rfl, rfl, sameKey, rfl, sameItems, few, same rfl rfl sameKey rfl sameItems few⟩

end Builder

end GolombSet
