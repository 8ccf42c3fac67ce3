import GolombSet.Proofs.Bits.Codes
import GolombSet.Proofs.Filter.Decoding
import GolombSet.Proofs.Filter.Wire
import Mathlib.Algebra.GroupWithZero.Nat

set_option autoImplicit false

namespace GolombSet.Values

/-- The next quotient is too large, or the next code is complete and its value makes the sum so. -/
def Corrupt (p total : Nat) (bits : Bits) : Prop :=
  Rice.Overflows p bits ∨ ∃ delta rest, bits = Rice.code p delta ++ rest ∧ 2 ^ 64 ≤ total + delta

/-- At most `limit` codes, summed up from `start` without bounds. -/
structure Decodes (p limit start : Nat) (bits : Bits) (deltas : List Nat) (rest : Bits)
    (places : List UInt64) (fault : Option FilterError) : Prop where
  coded : bits = deltas.flatMap (Rice.code p) ++ rest
  sums : places.map UInt64.toNat =
    (List.range deltas.length).map fun i => start + (deltas.take (i + 1)).sum
  within : deltas.length ≤ limit
  complete : fault = none ↔ deltas.length = limit
  corrupt : fault = some .corruptStream ↔
    deltas.length < limit ∧ Corrupt p (start + deltas.sum) rest
  interrupted : fault = some .endOfStream ↔
    deltas.length < limit ∧ Rice.Interrupted p rest ∧ ¬Corrupt p (start + deltas.sum) rest
  known : fault = none ∨ fault = some .corruptStream ∨ fault = some .endOfStream

namespace Decodes

variable {p limit start : Nat} {bits later rest : Bits} {deltas : List Nat} {places : List UInt64}
  {fault : Option FilterError}

theorem ended (p start : Nat) (bits : Bits) : Decodes p 0 start bits [] bits [] none where
  coded := rfl
  sums := rfl
  within := Nat.le_refl 0
  complete := by simp
  corrupt := by simp
  interrupted := by simp
  known := .inl rfl

theorem failed {reason : FilterError} (more : 0 < limit)
    (why : (reason = .corruptStream ∧ Corrupt p start bits) ∨
      (reason = .endOfStream ∧ Rice.Interrupted p bits ∧ ¬Corrupt p start bits)) :
    Decodes p limit start bits [] bits [] (some reason) where
  coded := rfl
  sums := rfl
  within := Nat.zero_le limit
  complete := by simp [Nat.ne_of_lt more]
  corrupt := by
    rcases why with ⟨rfl, corrupt⟩ | ⟨rfl, -, sound⟩
    · simpa [more] using corrupt
    · simpa using fun _ => sound
  interrupted := by
    rcases why with ⟨rfl, corrupt⟩ | ⟨rfl, interrupted, sound⟩
    · simpa using fun _ _ => corrupt
    · simpa [more] using ⟨interrupted, sound⟩
  known := by
    rcases why with ⟨rfl, -⟩ | ⟨rfl, -⟩
    · exact .inr (.inl rfl)
    · exact .inr (.inr rfl)

theorem cons {gap value : UInt64} (coded : bits = Rice.code p gap.toNat ++ later)
    (sum : value.toNat = start + gap.toNat)
    (decodes : Decodes p limit value.toNat later deltas rest places fault) :
    Decodes p (limit + 1) start bits (gap.toNat :: deltas) rest (value :: places) fault where
  coded := by rw [coded, decodes.coded, List.flatMap_cons, List.append_assoc]
  sums := by
    rw [List.map_cons, decodes.sums, List.length_cons, List.range_succ_eq_map, List.map_cons,
      List.map_map]
    simp [sum, Nat.add_assoc]
  within := Nat.succ_le_succ decodes.within
  complete := by simp [decodes.complete]
  corrupt := by simp [decodes.corrupt, sum, Nat.add_assoc]
  interrupted := by simp [decodes.interrupted, sum, Nat.add_assoc]
  known := decodes.known

theorem length_eq (decodes : Decodes p limit start bits deltas rest places fault) :
    places.length = deltas.length := by
  have lengths := congrArg List.length decodes.sums
  rwa [List.length_map, List.length_map, List.length_range] at lengths

theorem length_mul_le (decodes : Decodes p limit start bits deltas rest places fault) :
    places.length * (p + 1) ≤ bits.length := by
  rw [decodes.coded, List.length_append, decodes.length_eq]
  exact Nat.le_trans (Rice.length_mul_le_length_codes p deltas) (Nat.le_add_right _ _)

end Decodes

theorem not_corrupt_of_interrupted {p total : Nat} {bits : Bits}
    (interrupted : Rice.Interrupted p bits) (fits : ¬Rice.Overflows p bits) :
    ¬Corrupt p total bits := by
  rintro (overflows | ⟨delta, rest, split, -⟩)
  · exact fits overflows
  · exact Rice.ne_code_append_of_interrupted interrupted delta rest split

theorem advance_error_cases {p : Nat} (small : p ≤ 64) {last : UInt64} {bits : Bits}
    {reason : FilterError} (failed : advance last (bits.readRice p).1 = .error reason) :
    (reason = .corruptStream ∧ Corrupt p last.toNat bits) ∨
      (reason = .endOfStream ∧ Rice.Interrupted p bits ∧ ¬Corrupt p last.toNat bits) := by
  rcases bits.readRice_cases p small with ⟨gap, rest, split, read⟩ |
    ⟨quotient, rest, split, large, read⟩ | ⟨quotient, rest, split, fits, short, read⟩ |
    ⟨endless, read⟩
  · rw [read] at failed
    by_cases fits : last.toNat + gap.toNat < UInt64.size
    · simp [advance, fits] at failed
    · simp only [advance, if_neg fits, Except.error.injEq] at failed
      exact .inl ⟨failed.symm, .inr ⟨gap.toNat, rest, split, Nat.le_of_not_lt fits⟩⟩
  · rw [read] at failed
    cases failed
    exact .inl ⟨rfl, .inl ⟨quotient, rest, split, large⟩⟩
  · rw [read] at failed
    cases failed
    have interrupted := Rice.interrupted_of_short quotient short
    have bounded := Rice.not_overflows_of_fits fits rest
    rw [← split] at interrupted bounded
    exact .inr ⟨rfl, interrupted, not_corrupt_of_interrupted interrupted bounded⟩
  · rw [read] at failed
    cases failed
    have interrupted := Rice.interrupted_of_ones p bits.length
    have bounded := Rice.not_overflows_of_ones p bits.length
    rw [← endless] at interrupted bounded
    exact .inr ⟨rfl, interrupted, not_corrupt_of_interrupted interrupted bounded⟩

theorem remaining_of_done {values after : Values} (done : values.next = (none, after)) :
    values.remaining = 0 := by
  rcases values.next_cases with ⟨zero, -⟩ | ⟨reason, -, -, step⟩ | ⟨value, -, -, step⟩
  · exact zero
  · simp [done] at step
  · simp [done] at step

theorem next_eq_error {values after : Values} {reason : FilterError}
    (step : values.next = (some (.error reason), after)) :
    0 < values.remaining ∧
      advance values.last (values.cursor.readRice values.p.toNat).1 = .error reason := by
  rcases values.next_cases with ⟨-, other⟩ | ⟨found, more, failed, other⟩ | ⟨value, -, -, other⟩
  · simp [step] at other
  · rw [step] at other
    cases other
    exact ⟨more, failed⟩
  · simp [step] at other

theorem bits_of_readRice {p : Nat} (small : p ≤ 64) {cursor : BitCursor} {gap : UInt64}
    (read : (cursor.readRice p).1 = .ok gap) :
    cursor.bits = Rice.code p gap.toNat ++ (cursor.readRice p).2.bits := by
  have follows := cursor.readRice_follows p
  rw [follows.answer] at read
  rw [follows.unread]
  rcases cursor.bits.readRice_cases p small with ⟨value, rest, split, plain⟩ |
    ⟨quotient, rest, -, -, plain⟩ | ⟨quotient, rest, -, -, -, plain⟩ | ⟨-, plain⟩
  · rw [plain] at read ⊢
    cases read
    exact split
  all_goals
    rw [plain] at read
    contradiction

def places (values : Values) : List UInt64 :=
  values.toList.filterMap Except.toOption

variable {values final : Values} {places : List UInt64} {fault : Option FilterError}

theorem Yields.exists_decodes (yields : values.Yields places fault final)
    (small : values.p.toNat ≤ 64) :
    ∃ deltas rest, Decodes values.p.toNat values.remaining values.last.toNat
      values.cursor.bits deltas rest places fault := by
  induction yields with
  | @ended values done =>
    have zero := remaining_of_done done
    exact ⟨[], values.cursor.bits, zero ▸ .ended _ _ _⟩
  | @failed values after reason step idle =>
    obtain ⟨more, failed⟩ := next_eq_error step
    rw [(values.cursor.readRice_follows _).answer] at failed
    have why := advance_error_cases small failed
    exact ⟨[], values.cursor.bits, .failed more why⟩
  | @passed values after final value places fault step later ih =>
    obtain ⟨more, ⟨gap, read, sum⟩, rfl⟩ := next_eq_ok step
    obtain ⟨deltas, rest, decodes⟩ := ih small
    have whole := decodes.cons (bits_of_readRice small read) sum
    rw [Nat.sub_add_cancel more] at whole
    exact ⟨_, rest, whole⟩

theorem after_of_done (done : values.next = (none, values)) (calls : Nat) :
    values.after calls = values := by
  induction calls with
  | zero => rfl
  | succ calls ih => rw [after, done, ih]

theorem Yields.next_after (yields : values.Yields places fault final) (calls : Nat) :
    (values.after calls).next.1 =
      (places.map Except.ok ++ fault.toList.map Except.error)[calls]? := by
  induction yields generalizing calls with
  | ended done =>
    rw [after_of_done done, done]
    rfl
  | failed step idle =>
    cases calls with
    | zero =>
      rw [after, step]
      rfl
    | succ calls =>
      rw [after, step, after_of_done idle, idle]
      simp
  | passed step later ih =>
    cases calls with
    | zero =>
      rw [after, step]
      rfl
    | succ calls =>
      rw [after, step, ih]
      rfl

theorem Yields.remaining_after (yields : values.Yields places fault final) (calls : Nat) :
    (values.after calls).remaining =
      if calls ≤ places.length then values.remaining - calls else 0 := by
  induction yields generalizing calls with
  | ended done =>
    rw [after_of_done done, remaining_of_done done]
    simp
  | failed step idle =>
    cases calls with
    | zero => simp [after]
    | succ calls =>
      rw [after, step, after_of_done idle, remaining_of_done idle]
      simp
  | passed step later ih =>
    obtain ⟨more, -, rfl⟩ := next_eq_ok step
    cases calls with
    | zero => simp [after]
    | succ calls =>
      rw [after, step, ih]
      simp only [List.length_cons, Nat.add_le_add_iff_right]
      split <;> omega

theorem Yields.length_results_le (yields : values.Yields places fault final) :
    places.length + fault.toList.length ≤ values.remaining := by
  induction yields with
  | ended => exact Nat.zero_le _
  | failed step idle => exact (next_eq_error step).1
  | passed step later ih =>
    obtain ⟨more, -, rfl⟩ := next_eq_ok step
    simp only [List.length_cons] at ih ⊢
    omega

theorem Yields.toList_eq (yields : values.Yields places fault final) :
    values.toList = places.map Except.ok ++ fault.toList.map Except.error := by
  rw [toList, yields.take_eq, List.take_of_length_le]
  simpa using yields.length_results_le

theorem Yields.places_eq (yields : values.Yields places fault final) : values.places = places := by
  rw [Values.places, yields.toList_eq, List.filterMap_append, List.filterMap_map,
    List.filterMap_map]
  simp [Function.comp_def, Except.toOption]

end GolombSet.Values

namespace GolombSet.Filter

theorem p_values_le (filter : Filter) : filter.values.p.toNat ≤ 64 :=
  filter.parameter.toNat_le_64

theorem iteration_exact (count : UInt32) (parameter : Parameter) (data : Bytes) :
    let filter : Filter := ⟨count, parameter, data⟩
    ofParts count parameter.value data = .ok filter ∧
      ∃ deltas rest places fault,
        Values.Decodes parameter.toNat count.toNat 0 (Bits.ofBytes data) deltas rest places
          fault ∧
        places.Pairwise (· ≤ ·) ∧
        let results := places.map Except.ok ++ fault.toList.map Except.error
        (∀ calls, (filter.values.after calls).next.1 = results[calls]?) ∧
          (∀ calls, (filter.values.after calls).sizeHint =
            (0, if calls ≤ places.length then count.toNat - calls else 0)) ∧
          (∀ calls, results.length - calls ≤ (filter.values.after calls).sizeHint.2) ∧
          places.length * (parameter.toNat + 1) ≤ 8 * data.length ∧
          results.length ≤ min count.toNat (8 * data.length / (parameter.toNat + 1) + 1) := by
  intro filter
  refine ⟨(ofParts_eq_ok_iff _ _ _ filter).mpr ⟨rfl, rfl, rfl⟩, ?_⟩
  obtain ⟨places, fault, final, yields⟩ := filter.values.exists_yields
  obtain ⟨deltas, rest, decodes⟩ := yields.exists_decodes filter.p_values_le
  have few := yields.length_results_le
  have size := decodes.length_mul_le
  rw [Values.cursor, values, RawFilter.values, BitCursor.bits_ofBytes, Bits.length_ofBytes] at size
  refine ⟨deltas, rest, places, fault, decodes, List.Pairwise.of_cons yields.sorted, ?_⟩
  intro results
  have length : results.length = places.length + fault.toList.length := by simp [results]
  have once : fault.toList.length ≤ 1 := by cases fault <;> simp
  have bound (calls : Nat) : (filter.values.after calls).sizeHint =
      (0, if calls ≤ places.length then count.toNat - calls else 0) := by
    rw [Values.sizeHint, yields.remaining_after]
    rfl
  refine ⟨yields.next_after, bound, ?_, size, ?_⟩
  · intro calls
    rw [bound, length]
    by_cases early : calls ≤ places.length
    · rw [if_pos early]
      exact Nat.sub_le_sub_right few calls
    · rw [if_neg early]
      omega
  · refine Nat.le_min.mpr ⟨length ▸ few, ?_⟩
    have most : places.length ≤ 8 * data.length / (parameter.toNat + 1) :=
      (Nat.le_div_iff_mul_le (Nat.succ_pos _)).mpr size
    omega

-- The codes of 1, 0, 5 and 9, and a bit that is no code.
example : (Filter.values ⟨5, ⟨2, by decide⟩, [0x22, 0x72]⟩).toList =
    [.ok 1, .ok 1, .ok 6, .ok 15, .error .endOfStream] := by
  cbv

end GolombSet.Filter
