import GolombSet.Filter.Query
import GolombSet.Proofs.Filter.Iteration
import GolombSet.Proofs.Places

set_option autoImplicit false

namespace GolombSet

namespace Values

def unsettled : Option FilterError → Except FilterError Bool
  | none => .ok false
  | some reason => .error reason

def scan {State : Type} (inspect : State → UInt64 → Verdict State) (fault : Option FilterError) :
    State → List UInt64 → Except FilterError Bool
  | _, [] => unsettled fault
  | state, value :: places =>
    match inspect state value with
    | .settled answer => .ok answer
    | .undecided state => scan inspect fault state places

theorem search_of_next {State : Type} (inspect : State → UInt64 → Verdict State) (state : State)
    (values : Values) :
    values.search inspect state =
      match values.next with
      | (none, _) => .ok false
      | (some (.error reason), _) => .error reason
      | (some (.ok value), after) =>
        match inspect state value with
        | .settled answer => .ok answer
        | .undecided state => after.search inspect state := by
  rw [search]
  split <;> next step => exact step ▸ rfl

theorem Yields.search_eq {State : Type} {values final : Values} {places : List UInt64}
    {fault : Option FilterError} (yields : values.Yields places fault final)
    (inspect : State → UInt64 → Verdict State) (state : State) :
    values.search inspect state = scan inspect fault state places := by
  induction yields generalizing state with
  | ended done =>
    rw [search_of_next, done]
    rfl
  | failed step idle =>
    rw [search_of_next, step]
    rfl
  | @passed values after final value places fault step later ih =>
    rw [search_of_next, scan]
    simp only [step]
    cases inspect state value with
    | settled answer => rfl
    | undecided state => exact ih state

open Classical in
/-- The answer if a target is met, or else if all are exceeded, or else if neither is so. -/
noncomputable def settle (met exceeded : Prop) (fault : Option FilterError) :
    Except FilterError Bool :=
  if met then .ok true else if exceeded then .ok false else unsettled fault

section

variable {met exceeded : Prop} {fault : Option FilterError}

theorem settle_of_met (here : met) : settle met exceeded fault = .ok true :=
  if_pos here

theorem settle_of_exceeded (missed : ¬met) (beyond : exceeded) :
    settle met exceeded fault = .ok false := by
  rw [settle, if_neg missed, if_pos beyond]

theorem settle_of_not (missed : ¬met) (within : ¬exceeded) :
    settle met exceeded fault = unsettled fault := by
  rw [settle, if_neg missed, if_neg within]

theorem settle_congr {met' exceeded' : Prop} (sameMet : met ↔ met')
    (sameExceeded : exceeded ↔ exceeded') :
    settle met exceeded fault = settle met' exceeded' fault := by
  rw [propext sameMet, propext sameExceeded]

theorem settle_none [Decidable met] : settle met exceeded none = .ok (decide met) := by
  by_cases here : met <;> by_cases beyond : exceeded <;> simp [settle, unsettled, here, beyond]

theorem settle_eq_true_iff : settle met exceeded fault = .ok true ↔ met := by
  by_cases here : met <;> by_cases beyond : exceeded <;> cases fault <;>
    simp [settle, unsettled, here, beyond]

theorem settle_eq_false_iff :
    settle met exceeded fault = .ok false ↔ ¬met ∧ (exceeded ∨ fault = none) := by
  by_cases here : met <;> by_cases beyond : exceeded <;> cases fault <;>
    simp [settle, unsettled, here, beyond]

theorem settle_eq_error_iff (reason : FilterError) :
    settle met exceeded fault = .error reason ↔ ¬met ∧ ¬exceeded ∧ fault = some reason := by
  by_cases here : met <;> by_cases beyond : exceeded <;> cases fault <;>
    simp [settle, unsettled, here, beyond]

end

end Values

namespace RawFilter

theorem not_mem_cons_of_lt {target place : UInt64} {places : List UInt64} (below : target < place)
    (least : ∀ later ∈ places, place ≤ later) : target ∉ place :: places := by
  intro found
  rcases List.mem_cons.mp found with rfl | found
  · exact UInt64.lt_irrefl _ below
  · exact UInt64.not_lt.mpr (least target found) below

theorem scan_inspectOne (fault : Option FilterError) (target : UInt64) (places : List UInt64)
    (sorted : places.Pairwise (· ≤ ·)) :
    Values.scan inspectOne fault target places =
      Values.settle (target ∈ places) (∃ place ∈ places, target < place) fault := by
  induction places with
  | nil => simp [Values.scan, Values.settle]
  | cons place places ih =>
    obtain ⟨least, sorted⟩ := List.pairwise_cons.mp sorted
    by_cases below : place < target
    · have other : target ≠ place := (UInt64.ne_of_lt below).symm
      have notAbove : ¬target < place := UInt64.lt_asymm below
      simp only [Values.scan, inspectOne, if_pos below, ih sorted]
      exact Values.settle_congr (by simp [other]) (by simp [notAbove])
    · by_cases met : place = target
      · rw [Values.settle_of_met (by simp [met])]
        simp [Values.scan, inspectOne, met]
      · have above : target < place :=
          UInt64.lt_of_le_of_ne (UInt64.not_lt.mp below) (Ne.symm met)
        -- No later place can be the target either, since they are sorted.
        rw [Values.settle_of_exceeded (not_mem_cons_of_lt above least)
          ⟨place, List.mem_cons_self .., above⟩]
        simp [Values.scan, inspectOne, below, met]

theorem exists_mem_append_iff {low high places : List UInt64} {place : UInt64}
    (passed : ∀ target ∈ low, target < place) (ahead : ∀ target ∈ high, place < target)
    (least : ∀ later ∈ places, place ≤ later) :
    (∃ target ∈ low ++ high, target ∈ place :: places) ↔ ∃ target ∈ high, target ∈ places := by
  constructor
  · rintro ⟨target, member, found⟩
    rcases List.mem_append.mp member with member | member
    · exact absurd found (not_mem_cons_of_lt (passed target member) least)
    · rcases List.mem_cons.mp found with rfl | found
      · exact absurd (ahead _ member) (UInt64.lt_irrefl _)
      · exact ⟨target, member, found⟩
  · rintro ⟨target, member, found⟩
    exact ⟨target, List.mem_append_right low member, List.mem_cons_of_mem place found⟩

theorem forall_mem_append_iff {low high places : List UInt64} {place : UInt64}
    (passed : ∀ target ∈ low, target < place) (ahead : ∀ target ∈ high, place < target) :
    (∀ target ∈ low ++ high, ∃ later ∈ place :: places, target < later) ↔
      ∀ target ∈ high, ∃ later ∈ places, target < later := by
  constructor
  · intro all target member
    obtain ⟨later, found, above⟩ := all target (List.mem_append_right low member)
    rcases List.mem_cons.mp found with rfl | found
    · exact absurd above (UInt64.lt_asymm (ahead target member))
    · exact ⟨later, found, above⟩
  · intro all target member
    rcases List.mem_append.mp member with member | member
    · exact ⟨place, List.mem_cons_self .., passed target member⟩
    · obtain ⟨later, found, above⟩ := all target member
      exact ⟨later, List.mem_cons_of_mem place found, above⟩

theorem scan_inspectMany (fault : Option FilterError) (targets places : List UInt64)
    (nonempty : targets ≠ []) (sortedTargets : targets.Pairwise (· ≤ ·))
    (sorted : places.Pairwise (· ≤ ·)) :
    Values.scan inspectMany fault targets places =
      Values.settle (∃ target ∈ targets, target ∈ places)
        (∀ target ∈ targets, ∃ place ∈ places, target < place) fault := by
  induction places generalizing targets with
  | nil =>
    obtain ⟨target, rest, rfl⟩ := List.exists_cons_of_ne_nil nonempty
    refine (Values.settle_of_not (by simp) fun all => ?_).symm
    obtain ⟨place, none, -⟩ := all target (List.mem_cons_self ..)
    exact List.not_mem_nil none
  | cons place places ih =>
    obtain ⟨least, sorted⟩ := List.pairwise_cons.mp sorted
    have parts := List.takeWhile_append_dropWhile (p := (· < place)) (l := targets)
    have passed : ∀ target ∈ targets.takeWhile (· < place), target < place := by
      intro target member
      simpa using List.all_eq_true.mp List.all_takeWhile target member
    generalize targets.takeWhile (· < place) = low at parts passed
    cases left : targets.dropWhile (· < place) with
    | nil =>
      rw [left, List.append_nil] at parts
      subst parts
      have missed : ¬∃ target ∈ low, target ∈ place :: places := by
        rintro ⟨target, member, found⟩
        exact not_mem_cons_of_lt (passed target member) least found
      rw [Values.settle_of_exceeded missed fun target member =>
        ⟨place, List.mem_cons_self .., passed target member⟩]
      simp only [Values.scan, inspectMany, left]
    | cons target rest =>
      have notBelow : ¬target < place := by
        have first := List.head?_dropWhile_not (· < place) targets
        simpa [left] using first
      rw [left] at parts
      by_cases met : target = place
      · rw [Values.settle_of_met ⟨target, by simp [← parts], by simp [met]⟩]
        simp only [Values.scan, inspectMany, left, if_pos met]
      · rw [← parts] at sortedTargets
        have sortedHigh := (List.pairwise_append.mp sortedTargets).2.1
        have first : place < target :=
          UInt64.lt_of_le_of_ne (UInt64.not_lt.mp notBelow) (Ne.symm met)
        have ahead : ∀ other ∈ target :: rest, place < other := by
          intro other member
          rcases List.mem_cons.mp member with rfl | member
          · exact first
          · exact UInt64.lt_of_lt_of_le first (List.rel_of_pairwise_cons sortedHigh member)
        -- The dropped targets are below this place, so they cannot be met any more.
        simp only [Values.scan, inspectMany, left, if_neg met]
        rw [ih (target :: rest) (List.cons_ne_nil _ _) sortedHigh sorted]
        apply Values.settle_congr
        · rw [← parts, exists_mem_append_iff passed ahead least]
        · rw [← parts, forall_mem_append_iff passed ahead]

variable {filter : RawFilter} {places : List UInt64} {fault : Option FilterError} {final : Values}

theorem yields_of_isEmpty (yields : filter.values.Yields places fault final)
    (empty : filter.isEmpty = true) : places = [] ∧ fault = none := by
  have none : filter.values.next = (none, filter.values) := by
    have zero : filter.count = 0 := by simpa [isEmpty] using empty
    simp [values, Values.next, zero]
  cases yields with
  | ended done => exact ⟨rfl, rfl⟩
  | failed step idle => simp [none] at step
  | passed step later => simp [none] at step

theorem containsHash_eq (yields : filter.values.Yields places fault final) (hash : UInt64) :
    filter.containsHash hash =
      Values.settle (reduce hash filter.range ∈ places)
        (∃ later ∈ places, reduce hash filter.range < later) fault := by
  by_cases empty : filter.isEmpty = true
  · obtain ⟨rfl, rfl⟩ := yields_of_isEmpty yields empty
    -- An empty filter answers without being decoded.
    simp [containsHash, empty, Values.settle, Values.unsettled]
  · have sorted := List.Pairwise.of_cons yields.sorted
    rw [containsHash, if_neg empty, yields.search_eq, scan_inspectOne _ _ _ sorted]

theorem contains_eq (yields : filter.values.Yields places fault final) (key : Key) (item : Bytes) :
    filter.contains key item =
      Values.settle (place key filter.range item ∈ places)
        (∃ later ∈ places, place key filter.range item < later) fault :=
  containsHash_eq yields (itemHash key item)

theorem containsAny_eq (yields : filter.values.Yields places fault final) (key : Key)
    (items : List Bytes) :
    filter.containsAny key items =
      Values.settle (∃ item ∈ items, place key filter.range item ∈ places)
        (∀ item ∈ items, ∃ later ∈ places, place key filter.range item < later) fault := by
  by_cases empty : filter.isEmpty = true
  · obtain ⟨rfl, rfl⟩ := yields_of_isEmpty yields empty
    simp [containsAny, empty, Values.settle, Values.unsettled]
  · by_cases nothing : items = []
    · simp [containsAny, nothing, Values.settle]
    · have sorted := List.Pairwise.of_cons yields.sorted
      have member (target : UInt64) :
          target ∈ (items.map (place key filter.range)).mergeSort ↔
            ∃ item ∈ items, place key filter.range item = target :=
        List.mem_mergeSort.trans List.mem_map
      have nonempty : (items.map (place key filter.range)).mergeSort ≠ [] := by
        obtain ⟨item, rest, rfl⟩ := List.exists_cons_of_ne_nil nothing
        exact List.ne_nil_of_mem ((member _).mpr ⟨item, List.mem_cons_self .., rfl⟩)
      have early : ¬(filter.isEmpty || items.isEmpty) = true := by simp [empty, nothing]
      rw [containsAny, if_neg early, yields.search_eq,
        scan_inspectMany _ _ _ nonempty (pairwise_mergeSort _) sorted]
      apply Values.settle_congr
      · constructor
        · rintro ⟨target, sought, found⟩
          obtain ⟨item, chosen, rfl⟩ := (member target).mp sought
          exact ⟨item, chosen, found⟩
        · rintro ⟨item, chosen, found⟩
          exact ⟨_, (member _).mpr ⟨item, chosen, rfl⟩, found⟩
      · constructor
        · intro all item chosen
          exact all _ ((member _).mpr ⟨item, chosen, rfl⟩)
        · intro all target sought
          obtain ⟨item, chosen, rfl⟩ := (member target).mp sought
          exact all item chosen

theorem containsAny_singleton (filter : RawFilter) (key : Key) (item : Bytes) :
    filter.containsAny key [item] = filter.contains key item := by
  obtain ⟨places, fault, final, yields⟩ := filter.values.exists_yields
  rw [containsAny_eq yields, contains_eq yields]
  exact Values.settle_congr (by simp) (by simp)

end RawFilter

namespace Filter

variable {filter : Filter} {places : List UInt64} {fault : Option FilterError} {final : Values}

theorem containsHash_eq (yields : filter.values.Yields places fault final) (hash : UInt64) :
    filter.containsHash hash =
      Values.settle (reduce hash filter.range ∈ places)
        (∃ later ∈ places, reduce hash filter.range < later) fault :=
  RawFilter.containsHash_eq yields hash

theorem contains_eq (yields : filter.values.Yields places fault final) (key : Key) (item : Bytes) :
    filter.contains key item =
      Values.settle (place key filter.range item ∈ places)
        (∃ later ∈ places, place key filter.range item < later) fault :=
  RawFilter.contains_eq yields key item

theorem containsAny_eq (yields : filter.values.Yields places fault final) (key : Key)
    (items : List Bytes) :
    filter.containsAny key items =
      Values.settle (∃ item ∈ items, place key filter.range item ∈ places)
        (∀ item ∈ items, ∃ later ∈ places, place key filter.range item < later) fault :=
  RawFilter.containsAny_eq yields key items

theorem containsAny_singleton (filter : Filter) (key : Key) (item : Bytes) :
    filter.containsAny key [item] = filter.contains key item :=
  filter.raw.containsAny_singleton key item

theorem toNat_range (filter : Filter) :
    filter.range.toNat = filter.count.toNat * 2 ^ filter.parameter.toNat := by
  rw [range, Parameter.toNat_range, Nat.shiftLeft_eq]

theorem contains_of_no_count (parameter : Parameter) (data : Bytes) (key : Key) (item : Bytes) :
    contains ⟨0, parameter, data⟩ key item = .ok false := by
  rfl

theorem contains_exact (filter : Filter) (key : Key) (item : Bytes) :
    let range := filter.count.toNat * 2 ^ filter.parameter.toNat
    let target := place key (UInt64.ofNat range) item
    range < 2 ^ 64 ∧
      (∃ (places : List UInt64) (fault : Option FilterError),
        (∀ calls, (filter.values.after calls).next.1 =
          (places.map Except.ok ++ fault.toList.map Except.error)[calls]?) ∧
        (filter.contains key item = .ok true ↔ target ∈ places) ∧
        (filter.contains key item = .ok false ↔
          target ∉ places ∧ ((∃ later ∈ places, target < later) ∨ fault = none)) ∧
        ∀ reason, filter.contains key item = .error reason ↔
          (∀ earlier ∈ places, earlier < target) ∧ fault = some reason) ∧
      ∀ parameter data, contains ⟨0, parameter, data⟩ key item = .ok false := by
  intro range target
  have whole : UInt64.ofNat range = filter.range := by
    rw [← filter.range.ofNat_toNat, toNat_range]
  have bound : range < 2 ^ 64 := by
    simpa only [toNat_range] using filter.range.toNat_lt
  obtain ⟨places, fault, final, yields⟩ := filter.values.exists_yields
  have answer := contains_eq yields key item
  rw [← whole] at answer
  refine ⟨bound, ⟨places, fault, yields.next_after, ?_, ?_, ?_⟩, ?_⟩
  · rw [answer, Values.settle_eq_true_iff]
  · rw [answer, Values.settle_eq_false_iff]
  · intro reason
    rw [answer, Values.settle_eq_error_iff]
    -- A target that is neither met nor exceeded is beyond every place.
    constructor
    · rintro ⟨missed, within, ended⟩
      refine ⟨?_, ended⟩
      intro earlier member
      apply UInt64.lt_of_le_of_ne
      · exact UInt64.not_lt.mp fun beyond => within ⟨earlier, member, beyond⟩
      · rintro rfl
        exact missed member
    · rintro ⟨below, ended⟩
      refine ⟨?_, ?_, ended⟩
      · exact fun met => UInt64.lt_irrefl _ (below target met)
      · rintro ⟨later, member, beyond⟩
        exact UInt64.lt_asymm beyond (below later member)
  · exact fun parameter data => contains_of_no_count parameter data key item

end Filter

end GolombSet
