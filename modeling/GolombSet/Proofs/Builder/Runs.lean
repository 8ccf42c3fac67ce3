import GolombSet.Builder.Action
import GolombSet.Proofs.Builder.Assembly
import GolombSet.Proofs.Filter.Batch

set_option autoImplicit false

namespace GolombSet.Builder

def Action.items : Action → List Bytes
  | add item => [item]
  | addAll items => items
  | addOutpoint outpoint => [outpoint.toBytes]
  | addDigest digest => [digest.bytes]
  | addScript script => [script]
  | setKey _ | setKeyFromDigest _ | setParameter _ | resolveKey _ | build _ => []

def Action.parameter : Action → Option UInt8
  | setParameter p => some p
  | _ => none

theorem items_setKey (builder : Builder) (key : Key) :
    (builder.setKey key).items = builder.items := by
  unfold setKey
  split <;> rfl

theorem rejected_setKey (builder : Builder) (key : Key) :
    (builder.setKey key).rejected = builder.rejected := by
  unfold setKey
  split <;> rfl

theorem items_setParameter (builder : Builder) (p : UInt8) :
    (builder.setParameter p).items = builder.items := by
  unfold setParameter
  split
  · split <;> rfl
  · rfl

theorem rejected_setParameter (builder : Builder) (p : UInt8) (small : p ≤ 32) :
    (builder.setParameter p).rejected = builder.rejected := by
  unfold setParameter
  split
  · simp [Parameter.check, small]
  · rfl

theorem items_resolveKey (builder : Builder) (fresh : Key) :
    (builder.resolveKey fresh).2.items = builder.items := by
  unfold resolveKey
  split <;> rfl

theorem rejected_resolveKey (builder : Builder) (fresh : Key) :
    (builder.resolveKey fresh).2.rejected = builder.rejected := by
  unfold resolveKey
  split <;> rfl

theorem build_snd (builder : Builder) (fresh : Key) :
    (builder.build fresh).2 = (builder.resolveKey fresh).2 := by
  unfold build
  split <;> simp [*]

theorem items_perform (builder : Builder) (action : Action) :
    (builder.perform action).items.toList = builder.items.toList ++ action.items := by
  cases action with
  | setKey key => simp [perform, Action.items, items_setKey]
  | setKeyFromDigest digest => simp [perform, Action.items, setKeyFromDigest, items_setKey]
  | setParameter p => simp [perform, Action.items, items_setParameter]
  | add item => simp [perform, Action.items, add]
  | addAll items => simp [perform, Action.items, addAll_eq]
  | addOutpoint outpoint => simp [perform, Action.items, addOutpoint, add]
  | addDigest digest => simp [perform, Action.items, addDigest, add]
  | addScript script => simp [perform, Action.items, addScript, add]
  | resolveKey fresh => simp [perform, Action.items, items_resolveKey]
  | build fresh => simp [perform, Action.items, build_snd, items_resolveKey]

theorem rejected_perform (builder : Builder) (action : Action)
    (small : ∀ p ∈ action.parameter, p ≤ 32) :
    (builder.perform action).rejected = builder.rejected := by
  cases action with
  | setKey key => exact rejected_setKey builder key
  | setKeyFromDigest digest => exact rejected_setKey builder _
  -- Only a parameter above 32 is ever rejected.
  | setParameter p => exact rejected_setParameter builder p (small p rfl)
  | addAll items => simp [perform, addAll_eq]
  | add | addOutpoint | addDigest | addScript => rfl
  | resolveKey fresh => exact rejected_resolveKey builder fresh
  | build fresh => rw [perform, build_snd, rejected_resolveKey]

theorem items_performAll (builder : Builder) (actions : List Action) :
    (builder.performAll actions).items.toList =
      builder.items.toList ++ actions.flatMap Action.items := by
  unfold performAll
  induction actions generalizing builder with
  | nil => simp
  | cons action actions ih => simp [ih, items_perform]

theorem rejected_performAll (builder : Builder) (actions : List Action)
    (small : ∀ action ∈ actions, ∀ p ∈ action.parameter, p ≤ 32) :
    (builder.performAll actions).rejected = builder.rejected := by
  unfold performAll
  induction actions generalizing builder with
  | nil => rfl
  | cons action actions ih =>
    rw [List.foldl_cons, ih _ fun later member => small later (List.mem_cons_of_mem _ member)]
    exact rejected_perform builder action (small action (List.mem_cons_self ..))

theorem items_create (origin : Origin) : (create origin).items = #[] := by
  unfold create
  split
  · rfl
  · exact items_setKey _ _
  · exact (items_setParameter _ _).trans (items_setKey _ _)

theorem rejected_create (origin : Origin) (small : ∀ p ∈ origin.parameter, p ≤ 32) :
    (create origin).rejected = none := by
  unfold create
  split
  · rfl
  · exact rejected_setKey _ _
  · next key p _ asked =>
    exact (rejected_setParameter _ p (small p asked)).trans (rejected_setKey _ _)

theorem items_run (origin : Origin) (actions : List Action) :
    (run origin actions).items.toList = actions.flatMap Action.items := by
  rw [run, items_performAll, items_create]
  rfl

theorem rejected_run (origin : Origin) (actions : List Action)
    (smallStart : ∀ p ∈ origin.parameter, p ≤ 32)
    (small : ∀ action ∈ actions, ∀ p ∈ action.parameter, p ≤ 32) :
    (run origin actions).rejected = none := by
  rw [run, rejected_performAll _ _ small, rejected_create origin smallStart]

theorem contains_ofItems (key : Key) (parameter : Parameter) (items : List Bytes)
    (few : items.dedup.length < 2 ^ 32) (item : Bytes) (member : item ∈ items) :
    (Filter.ofItems key parameter items).contains key item = .ok true := by
  obtain ⟨final, yields, -⟩ := Filter.yields_ofItems key parameter items few
  rw [Filter.contains_eq yields, Values.settle_eq_true_iff]
  exact mem_sortedPlaces key parameter items item member

theorem contains_of_added (origin : Origin) (actions : List Action) (fresh later : Key)
    (smallStart : ∀ p ∈ origin.parameter, p ≤ 32)
    (small : ∀ action ∈ actions, ∀ p ∈ action.parameter, p ≤ 32)
    (few : (actions.flatMap Action.items).dedup.length < 2 ^ 32) :
    ∃ built key,
      ((run origin actions).build fresh).1 = .ok built ∧
      (((run origin actions).build fresh).2.resolveKey later).1 = .ok key ∧
      ∀ item ∈ actions.flatMap Action.items,
        built.filter.contains key item = .ok true ∧
          ∀ batch : List Bytes, item ∈ batch → built.filter.containsAny key batch = .ok true := by
  have accepted := rejected_run origin actions smallStart small
  have items := items_run origin actions
  obtain ⟨log, built⟩ := (run origin actions).build_of_accepted fresh accepted (by rwa [items])
  rw [items] at built
  refine ⟨_, (run origin actions).key.getD fresh, congrArg Prod.fst built, ?_, ?_⟩
  · rw [built]
    simp [resolveKey, accepted]
  · intro item member
    have hit := contains_ofItems ((run origin actions).key.getD fresh)
      (run origin actions).parameter _ few item member
    refine ⟨hit, fun batch chosen => ?_⟩
    exact (RawFilter.containsAny_eq_true_iff _ _ batch).mpr ⟨item, chosen, hit⟩

theorem contains_of_added_largest_parameter :
    let zeros : Key := ⟨List.replicate 16 0, rfl⟩
    let actions := [.add [1, 2], .build zeros, .setParameter 32, .addAll [[3], [1, 2]]]
    (∀ action ∈ actions, ∀ p ∈ action.parameter, p ≤ 32) ∧
      (actions.flatMap Action.items).dedup.length < 2 ^ 32 ∧
      ∃ built key,
        ((run .withoutKey actions).build zeros).1 = .ok built ∧
        (((run .withoutKey actions).build zeros).2.resolveKey zeros).1 = .ok key ∧
        built.filter.contains key [3] = .ok true ∧
        built.filter.containsAny key [[9], [1, 2], [9]] = .ok true := by
  intro zeros actions
  have small : ∀ action ∈ actions, ∀ p ∈ action.parameter, p ≤ 32 := by
    simp [actions, Action.parameter]
  have entries : (actions.flatMap Action.items).dedup = [[3], [1, 2]] := by decide
  have few : (actions.flatMap Action.items).dedup.length < 2 ^ 32 := by simp [entries]
  obtain ⟨built, key, done, kept, found⟩ :=
    contains_of_added .withoutKey actions zeros zeros (by simp [Origin.parameter]) small few
  have single := found [3] (by simp [actions, Action.items])
  have batch := found [1, 2] (by simp [actions, Action.items])
  exact ⟨small, few, built, key, done, kept, single.1, batch.2 _ (by simp)⟩

end GolombSet.Builder
