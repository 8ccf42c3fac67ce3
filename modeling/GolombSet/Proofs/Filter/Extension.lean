import GolombSet.Proofs.Filter.Batch
import GolombSet.Proofs.Filter.Iteration

set_option autoImplicit false

namespace GolombSet

namespace Values

structure Extends (more : Bits) (longer values : Values) : Prop where
  p : longer.p = values.p
  remaining : longer.remaining = values.remaining
  last : longer.last = values.last
  unread : longer.cursor.bits = values.cursor.bits ++ more

variable {more : Bits} {longer values final : Values} {places : List UInt64}
  {fault : Option FilterError}

theorem Extends.readRice (extension : Extends more longer values) (small : values.p.toNat ≤ 64)
    (decided : (values.cursor.readRice values.p.toNat).1 ≠ .error .endOfStream) :
    (longer.cursor.readRice values.p.toNat).1 =
        (values.cursor.readRice values.p.toNat).1 ∧
      (longer.cursor.readRice values.p.toNat).2.bits =
        (values.cursor.readRice values.p.toNat).2.bits ++ more := by
  have short := values.cursor.readRice_follows values.p.toNat
  have long := longer.cursor.readRice_follows values.p.toNat
  rw [short.answer] at decided
  rw [extension.unread,
    Bits.readRice_append_of_ne small more decided] at long
  constructor
  · rw [long.answer, short.answer]
  · rw [long.unread, short.unread]

theorem done_of_remaining (zero : values.remaining = 0) : values.next = (none, values) := by
  simp [Values.next, zero]

theorem Extends.next (extension : Extends more longer values) (small : values.p.toNat ≤ 64)
    (decided : values.next.1 ≠ some (.error .endOfStream)) :
    longer.next.1 = values.next.1 ∧ Extends more longer.next.2 values.next.2 := by
  have p := extension.p
  have count := extension.remaining
  have last := extension.last
  cases remaining : values.remaining with
  | zero =>
    rw [done_of_remaining remaining, done_of_remaining (count.trans remaining)]
    exact ⟨rfl, extension⟩
  | succ remaining =>
    have enough : (values.cursor.readRice values.p.toNat).1 ≠ .error .endOfStream := by
      intro short
      apply decided
      simp [Values.next, remaining, short, advance, FilterError.ofStream]
    obtain ⟨answer, unread⟩ := extension.readRice small enough
    cases step : advance values.last (values.cursor.readRice values.p.toNat).1 with
    | error reason =>
      simp only [Values.next, count, remaining, p, last, answer, step]
      exact ⟨trivial, rfl, rfl, rfl, unread⟩
    | ok value =>
      simp only [Values.next, count, remaining, p, last, answer, step]
      exact ⟨trivial, rfl, rfl, rfl, unread⟩

theorem Yields.extend (yields : values.Yields places fault final)
    (extension : Extends more longer values) (small : values.p.toNat ≤ 64) :
    ∃ others fault' final', longer.Yields (places ++ others) fault' final' ∧
      (fault ≠ some .endOfStream → others = [] ∧ fault' = fault) := by
  induction yields generalizing longer with
  | @ended values done =>
    have done' : longer.next = (none, longer) :=
      done_of_remaining (extension.remaining.trans (remaining_of_done done))
    exact ⟨[], none, longer, .ended done', fun _ => ⟨rfl, rfl⟩⟩
  | @failed values after reason step idle =>
    by_cases short : reason = .endOfStream
    · obtain ⟨others, fault', final', yields⟩ := longer.exists_yields
      exact ⟨others, fault', final', yields, fun decided => absurd (congrArg some short) decided⟩
    · obtain ⟨answer, extension⟩ := extension.next small (by simp [step, short])
      rw [step] at answer extension
      have idle' : longer.next.2.next = (none, longer.next.2) :=
        done_of_remaining (extension.remaining.trans (remaining_of_done idle))
      have step' : longer.next = (some (.error reason), longer.next.2) := Prod.ext answer rfl
      exact ⟨[], some reason, longer, .failed step' idle', fun _ => ⟨rfl, rfl⟩⟩
  | @passed values after final value places fault step later ih =>
    obtain ⟨answer, extension⟩ := extension.next small (by simp [step])
    rw [step] at answer extension
    have small' : after.p.toNat ≤ 64 := by
      obtain ⟨-, -, rfl⟩ := next_eq_ok step
      exact small
    obtain ⟨others, fault', final', yields, same⟩ := ih extension small'
    have step' : longer.next = (some (.ok value), longer.next.2) := Prod.ext answer rfl
    exact ⟨others, fault', final', .passed step' yields, same⟩

theorem settle_append {A : Type} {items : List A} {target : A → UInt64}
    {places others : List UInt64} {fault fault' : Option FilterError}
    (sorted : (places ++ others).Pairwise (· ≤ ·))
    (same : fault ≠ some .endOfStream → others = [] ∧ fault' = fault)
    (decided : settle (∃ a ∈ items, target a ∈ places)
      (∀ a ∈ items, ∃ later ∈ places, target a < later) fault ≠ .error .endOfStream) :
    settle (∃ a ∈ items, target a ∈ places ++ others)
        (∀ a ∈ items, ∃ later ∈ places ++ others, target a < later) fault' =
      settle (∃ a ∈ items, target a ∈ places)
        (∀ a ∈ items, ∃ later ∈ places, target a < later) fault := by
  by_cases met : ∃ a ∈ items, target a ∈ places
  · rw [settle_of_met met]
    obtain ⟨a, member, found⟩ := met
    exact settle_of_met ⟨a, member, List.mem_append_left _ found⟩
  · by_cases exceeded : ∀ a ∈ items, ∃ later ∈ places, target a < later
    · rw [settle_of_exceeded met exceeded]
      refine settle_of_exceeded ?_ ?_
      · rintro ⟨a, member, found⟩
        rcases List.mem_append.mp found with found | found
        · exact met ⟨a, member, found⟩
        -- What comes later is not below a place that the target is below.
        · obtain ⟨later, earlier, above⟩ := exceeded a member
          have order := (List.pairwise_append.mp sorted).2.2 later earlier _ found
          exact UInt64.not_lt.mpr order above
      · intro a member
        obtain ⟨later, earlier, above⟩ := exceeded a member
        exact ⟨later, List.mem_append_left _ earlier, above⟩
    · have unaffected : fault ≠ some .endOfStream := by
        rintro rfl
        rw [settle_of_not met exceeded] at decided
        exact decided rfl
      obtain ⟨rfl, rfl⟩ := same unaffected
      rw [List.append_nil]

end Values

namespace Filter

def extend (filter : Filter) (suffix : Bytes) : Filter :=
  { filter with data := filter.data ++ suffix }

def truncate (filter : Filter) (size : Nat) : Filter :=
  { filter with data := filter.data.take size }

theorem extend_truncate (filter : Filter) (size : Nat) :
    (filter.truncate size).extend (filter.data.drop size) = filter := by
  simp [extend, truncate]

theorem extends_values (filter : Filter) (suffix : Bytes) :
    Values.Extends (Bits.ofBytes suffix) (filter.extend suffix).values filter.values where
  p := rfl
  remaining := rfl
  last := rfl
  unread := by simp [values, raw, RawFilter.values, extend, Bits.ofBytes]

theorem places_extend (filter : Filter) (suffix : Bytes) :
    filter.values.places <+: (filter.extend suffix).values.places := by
  obtain ⟨places, fault, final, yields⟩ := filter.values.exists_yields
  obtain ⟨others, fault', final', yields', -⟩ :=
    yields.extend (filter.extends_values suffix) filter.p_values_le
  rw [yields.places_eq, yields'.places_eq]
  exact List.prefix_append places others

theorem next_after_extend (filter : Filter) (suffix : Bytes)
    (decided : filter.values.toList.getLast? ≠ some (.error .endOfStream)) (calls : Nat) :
    ((filter.extend suffix).values.after calls).next.1 = (filter.values.after calls).next.1 ∧
      ((filter.extend suffix).values.after calls).sizeHint =
        (filter.values.after calls).sizeHint := by
  obtain ⟨places, fault, final, yields⟩ := filter.values.exists_yields
  obtain ⟨others, fault', final', yields', same⟩ :=
    yields.extend (filter.extends_values suffix) filter.p_values_le
  have unaffected : fault ≠ some .endOfStream := by
    rintro rfl
    simp [yields.toList_eq] at decided
  obtain ⟨rfl, rfl⟩ := same unaffected
  rw [List.append_nil] at yields'
  rw [yields'.next_after, yields.next_after, Values.sizeHint, Values.sizeHint,
    yields'.remaining_after, yields.remaining_after]
  exact ⟨rfl, rfl⟩

theorem containsAny_extend (filter : Filter) (suffix : Bytes) (key : Key) (items : List Bytes)
    (decided : filter.containsAny key items ≠ .error .endOfStream) :
    (filter.extend suffix).containsAny key items = filter.containsAny key items := by
  obtain ⟨places, fault, final, yields⟩ := filter.values.exists_yields
  obtain ⟨others, fault', final', yields', same⟩ :=
    yields.extend (filter.extends_values suffix) filter.p_values_le
  rw [containsAny_eq yields] at decided ⊢
  rw [containsAny_eq yields']
  exact Values.settle_append (List.Pairwise.of_cons yields'.sorted) same decided

theorem contains_extend (filter : Filter) (suffix : Bytes) (key : Key) (item : Bytes)
    (decided : filter.contains key item ≠ .error .endOfStream) :
    (filter.extend suffix).contains key item = filter.contains key item := by
  rw [← containsAny_singleton] at decided
  rw [← containsAny_singleton, ← containsAny_singleton]
  exact containsAny_extend filter suffix key [item] decided

theorem containsAny_truncate (filter : Filter) (size : Nat) (key : Key) (items : List Bytes)
    (hit : filter.containsAny key items = .ok true) :
    (filter.truncate size).containsAny key items = .ok true ∨
      (filter.truncate size).containsAny key items = .error .endOfStream := by
  by_cases decided : (filter.truncate size).containsAny key items = .error .endOfStream
  · exact .inr decided
  · have same := (filter.truncate size).containsAny_extend (filter.data.drop size) key items decided
    rw [extend_truncate, hit] at same
    exact .inl same.symm

end Filter

end GolombSet
