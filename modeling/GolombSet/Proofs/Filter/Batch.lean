import GolombSet.Proofs.Filter.Search

set_option autoImplicit false

namespace GolombSet

namespace RawFilter

theorem containsAny_eq_true_iff (filter : RawFilter) (key : Key) (items : List Bytes) :
    filter.containsAny key items = .ok true ↔
      ∃ item ∈ items, filter.contains key item = .ok true := by
  obtain ⟨places, fault, final, yields⟩ := filter.values.exists_yields
  simp only [containsAny_eq yields, contains_eq yields, Values.settle_eq_true_iff]

theorem containsAny_eq_false_iff (filter : RawFilter) (key : Key) (items : List Bytes) :
    filter.containsAny key items = .ok false ↔
      ∀ item ∈ items, filter.contains key item = .ok false := by
  obtain ⟨places, fault, final, yields⟩ := filter.values.exists_yields
  simp only [containsAny_eq yields, contains_eq yields, Values.settle_eq_false_iff]
  constructor
  · rintro ⟨missed, ending⟩ item member
    exact ⟨fun met => missed ⟨item, member, met⟩, ending.imp_left fun all => all item member⟩
  · intro all
    refine ⟨?_, ?_⟩
    · rintro ⟨item, member, met⟩
      exact (all item member).1 met
    -- With a fault, only a place beyond the target can have settled the query of an item.
    · by_cases sound : fault = none
      · exact .inr sound
      · exact .inl fun item member => (all item member).2.resolve_right sound

theorem containsAny_eq_error_iff (filter : RawFilter) (key : Key) (items : List Bytes)
    (reason : FilterError) :
    filter.containsAny key items = .error reason ↔
      (¬∃ item ∈ items, filter.contains key item = .ok true) ∧
        ∃ item ∈ items, filter.contains key item = .error reason := by
  obtain ⟨places, fault, final, yields⟩ := filter.values.exists_yields
  simp only [containsAny_eq yields, contains_eq yields, Values.settle_eq_true_iff,
    Values.settle_eq_error_iff]
  constructor
  · rintro ⟨missed, within, same⟩
    obtain ⟨item, within⟩ := Classical.not_forall.mp within
    obtain ⟨member, within⟩ := Classical.not_imp.mp within
    exact ⟨missed, item, member, fun met => missed ⟨item, member, met⟩, within, same⟩
  · rintro ⟨missed, item, member, -, within, same⟩
    exact ⟨missed, fun all => within (all item member), same⟩

theorem containsAny_congr (filter : RawFilter) (key : Key) {items others : List Bytes}
    (same : ∀ item, item ∈ others ↔ item ∈ items) :
    filter.containsAny key others = filter.containsAny key items := by
  obtain ⟨places, fault, final, yields⟩ := filter.values.exists_yields
  simp only [containsAny_eq yields, same]

/-- An index outside the list is `none`. -/
def seek (targets : List UInt64) (value : UInt64) (index : Nat) : Option (Values.Verdict Nat) :=
  match _found : targets[index]? with
  | none => none
  | some target =>
    if target < value then
      if index + 1 = targets.length then some (.settled false)
      else seek targets value (index + 1)
    else if target = value then some (.settled true)
    else some (.undecided index)
termination_by targets.length - index
decreasing_by
  have inside := (List.getElem?_eq_some_iff.mp ‹_›).1
  omega

def searchFrom (targets : List UInt64) (index : Nat) (values : Values) :
    Option (Except FilterError Bool) :=
  match _step : values.next with
  | (none, _) => some (.ok false)
  | (some (.error reason), _) => some (.error reason)
  | (some (.ok value), after) =>
    match seek targets value index with
    | none => none
    | some (.settled answer) => some (.ok answer)
    | some (.undecided index) => searchFrom targets index after
termination_by values.remaining
decreasing_by exact Values.remaining_next ‹_›

def containsAnyByIndex (filter : RawFilter) (key : Key) (items : List Bytes) :
    Option (Except FilterError Bool) :=
  if filter.isEmpty || items.isEmpty then some (.ok false)
  else searchFrom (items.map (place key filter.range)).mergeSort 0 filter.values

inductive Tracks (targets : List UInt64) :
    Values.Verdict Nat → Values.Verdict (List UInt64) → Prop where
  | settled (answer : Bool) : Tracks targets (.settled answer) (.settled answer)
  | undecided (index : Nat) (inside : index < targets.length) :
      Tracks targets (.undecided index) (.undecided (targets.drop index))

theorem inspectMany_cons_of_lt {target value : UInt64} (rest : List UInt64)
    (below : target < value) : inspectMany (target :: rest) value = inspectMany rest value := by
  simp [inspectMany, below]

theorem seek_tracks (targets : List UInt64) (value : UInt64) (index : Nat)
    (inside : index < targets.length) :
    ∃ verdict, seek targets value index = some verdict ∧
      Tracks targets verdict (inspectMany (targets.drop index) value) := by
  have split {index : Nat} {target : UInt64} (found : targets[index]? = some target) :
      targets.drop index = target :: targets.drop (index + 1) := by
    obtain ⟨bound, rfl⟩ := List.getElem?_eq_some_iff.mp found
    exact List.drop_eq_getElem_cons bound
  -- The index passes one target at a time, the list drops all of them at once.
  fun_induction seek targets value index with
  | case1 index outside =>
    have beyond := List.getElem?_eq_none_iff.mp outside
    omega
  | case2 index target found below finished =>
    refine ⟨.settled false, rfl, ?_⟩
    rw [split found, inspectMany_cons_of_lt _ below, finished, List.drop_length]
    exact .settled false
  | case3 index target found below more ih =>
    rw [split found, inspectMany_cons_of_lt _ below]
    exact ih (by omega)
  | case4 index found below =>
    refine ⟨.settled true, rfl, ?_⟩
    rw [split found]
    simpa [inspectMany, below] using Tracks.settled true
  | case5 index target found below other =>
    refine ⟨.undecided index, rfl, ?_⟩
    have stay : inspectMany (targets.drop index) value = .undecided (targets.drop index) := by
      simp [split found, inspectMany, below, other]
    rw [stay]
    exact .undecided index inside

theorem searchFrom_of_next (targets : List UInt64) (index : Nat) (values : Values) :
    searchFrom targets index values =
      match values.next with
      | (none, _) => some (.ok false)
      | (some (.error reason), _) => some (.error reason)
      | (some (.ok value), after) =>
        match seek targets value index with
        | none => none
        | some (.settled answer) => some (.ok answer)
        | some (.undecided index) => searchFrom targets index after := by
  rw [searchFrom]
  split <;> next step => exact step ▸ rfl

theorem searchFrom_eq {values final : Values} {places : List UInt64} {fault : Option FilterError}
    (yields : values.Yields places fault final) (targets : List UInt64) (index : Nat)
    (inside : index < targets.length) :
    searchFrom targets index values =
      some (Values.scan inspectMany fault (targets.drop index) places) := by
  induction yields generalizing index with
  | ended done =>
    rw [searchFrom_of_next, done]
    rfl
  | failed step idle =>
    rw [searchFrom_of_next, step]
    rfl
  | @passed values after final value places fault step later ih =>
    obtain ⟨verdict, sought, tracks⟩ := seek_tracks targets value index inside
    rw [searchFrom_of_next, step, Values.scan]
    simp only [sought]
    generalize inspectMany (targets.drop index) value = plain at tracks ⊢
    cases tracks with
    | settled answer => rfl
    | undecided index inside => exact ih index inside

theorem containsAnyByIndex_eq (filter : RawFilter) (key : Key) (items : List Bytes) :
    filter.containsAnyByIndex key items = some (filter.containsAny key items) := by
  by_cases early : (filter.isEmpty || items.isEmpty) = true
  · rw [containsAnyByIndex, containsAny, if_pos early, if_pos early]
  · obtain ⟨places, fault, final, yields⟩ := filter.values.exists_yields
    have inside : 0 < (items.map (place key filter.range)).mergeSort.length := by
      rw [List.length_mergeSort, List.length_map]
      simp only [Bool.or_eq_true, List.isEmpty_iff, not_or] at early
      exact List.length_pos_iff.mpr early.2
    rw [containsAnyByIndex, containsAny, if_neg early, if_neg early,
      searchFrom_eq yields _ _ inside, List.drop_zero, yields.search_eq]

end RawFilter

namespace Filter

def containsAnyByIndex (filter : Filter) (key : Key) (items : List Bytes) :
    Option (Except FilterError Bool) :=
  filter.raw.containsAnyByIndex key items

theorem containsAny_agrees (filter : Filter) (key : Key) (items : List Bytes) :
    (filter.containsAny key items = .ok true ↔
        ∃ item ∈ items, filter.contains key item = .ok true) ∧
      (∀ reason, filter.containsAny key items = .error reason ↔
        (¬∃ item ∈ items, filter.contains key item = .ok true) ∧
          ∃ item ∈ items, filter.contains key item = .error reason) ∧
      (filter.containsAny key items = .ok false ↔
        ∀ item ∈ items, filter.contains key item = .ok false) ∧
      (∀ others : List Bytes, (∀ item, item ∈ others ↔ item ∈ items) →
        filter.containsAny key others = filter.containsAny key items) ∧
      filter.containsAnyByIndex key items = some (filter.containsAny key items) := by
  refine ⟨?_, ?_, ?_, ?_, ?_⟩
  · exact filter.raw.containsAny_eq_true_iff key items
  · exact filter.raw.containsAny_eq_error_iff key items
  · exact filter.raw.containsAny_eq_false_iff key items
  · exact fun others same => filter.raw.containsAny_congr key same
  · exact filter.raw.containsAnyByIndex_eq key items

end Filter

end GolombSet
