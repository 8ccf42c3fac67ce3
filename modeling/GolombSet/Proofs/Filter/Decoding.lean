import GolombSet.Filter.Encoding
import GolombSet.Filter.Values
import GolombSet.Proofs.Bits.Padding
import GolombSet.Proofs.Bits.Codes

set_option autoImplicit false

namespace GolombSet.Values

theorem advance_eq_ok {last value : UInt64} {gap : Except StreamError UInt64}
    (step : advance last gap = .ok value) :
    ∃ difference, gap = .ok difference ∧ value.toNat = last.toNat + difference.toNat := by
  cases gap with
  | error reason => contradiction
  | ok difference =>
    by_cases fits : last.toNat + difference.toNat < UInt64.size
    · simp only [advance, fits, if_true, Except.ok.injEq] at step
      refine ⟨difference, rfl, ?_⟩
      rw [← step, UInt64.toNat_add]
      exact Nat.mod_eq_of_lt fits
    · simp [advance, fits] at step

theorem next_cases (values : Values) :
    let gap := values.cursor.readRice values.p.toNat
    (values.remaining = 0 ∧ values.next = (none, values)) ∨
      (∃ reason, 0 < values.remaining ∧ advance values.last gap.1 = .error reason ∧
        values.next = (some (.error reason), { values with cursor := gap.2, remaining := 0 })) ∨
      (∃ value, 0 < values.remaining ∧ advance values.last gap.1 = .ok value ∧
        values.next = (some (.ok value), { values with
          cursor := gap.2, remaining := values.remaining - 1, last := value })) := by
  intro gap
  cases count : values.remaining with
  | zero => exact .inl ⟨rfl, by simp [next, count]⟩
  | succ remaining =>
    cases step : advance values.last gap.1 with
    | error reason =>
      have failed : values.next = (some (.error reason), { values with
          cursor := gap.2, remaining := 0 }) := by
        simp [next, count, gap, step]
      exact .inr (.inl ⟨reason, Nat.succ_pos _, rfl, failed⟩)
    | ok value =>
      have passed : values.next = (some (.ok value), { values with
          cursor := gap.2, remaining := values.remaining - 1, last := value }) := by
        simp [next, count, gap, step]
      rw [count] at passed
      exact .inr (.inr ⟨value, Nat.succ_pos _, rfl, passed⟩)

theorem next_eq_ok {values after : Values} {value : UInt64}
    (step : values.next = (some (.ok value), after)) :
    0 < values.remaining ∧
      (∃ gap, (values.cursor.readRice values.p.toNat).1 = .ok gap ∧
        value.toNat = values.last.toNat + gap.toNat) ∧
      after = { values with
        cursor := (values.cursor.readRice values.p.toNat).2
        remaining := values.remaining - 1
        last := value } := by
  rcases values.next_cases with ⟨-, other⟩ | ⟨reason, -, -, other⟩ | ⟨found, more, sum, other⟩
  · simp [step] at other
  · simp [step] at other
  · rw [step] at other
    simp only [Prod.mk.injEq, Option.some.injEq, Except.ok.injEq] at other
    obtain ⟨rfl, rfl⟩ := other
    exact ⟨more, advance_eq_ok sum, rfl⟩

/-- All of `places` come before `final`, which stops with `fault` or at the count. -/
inductive Yields : Values → List UInt64 → Option FilterError → Values → Prop where
  | ended {values : Values} (done : values.next = (none, values)) : Yields values [] none values
  | failed {values after : Values} {reason : FilterError}
      (step : values.next = (some (.error reason), after)) (idle : after.next = (none, after)) :
      Yields values [] (some reason) values
  | passed {values after final : Values} {value : UInt64} {places : List UInt64}
      {fault : Option FilterError} (step : values.next = (some (.ok value), after))
      (later : Yields after places fault final) : Yields values (value :: places) fault final

theorem exists_yields (values : Values) :
    ∃ places fault final, values.Yields places fault final := by
  -- On the count, which each step lowers unless it ends the run.
  induction count : values.remaining generalizing values with
  | zero => exact ⟨[], none, values, .ended (by simp [next, count])⟩
  | succ remaining ih =>
    rcases values.next_cases with ⟨-, done⟩ | ⟨reason, -, -, step⟩ | ⟨value, -, -, step⟩
    · exact ⟨[], none, values, .ended done⟩
    · exact ⟨[], some reason, values, .failed step rfl⟩
    · have shorter : values.next.2.remaining = remaining := by simp [step, count]
      obtain ⟨places, fault, final, later⟩ := ih _ shorter
      rw [step] at later
      exact ⟨value :: places, fault, final, .passed step later⟩

variable {values final : Values} {places : List UInt64} {fault : Option FilterError}

theorem Yields.sorted (yields : values.Yields places fault final) :
    (values.last :: places).Pairwise (· ≤ ·) := by
  induction yields with
  | ended | failed => simp
  | @passed values after final value places fault step later ih =>
    obtain ⟨-, ⟨gap, -, sum⟩, rfl⟩ := next_eq_ok step
    have ordered : values.last ≤ value := by
      rw [UInt64.le_iff_toNat_le]
      omega
    refine List.pairwise_cons.mpr ⟨?_, ih⟩
    intro place member
    rcases List.mem_cons.mp member with rfl | member
    · exact ordered
    · exact UInt64.le_trans ordered (List.rel_of_pairwise_cons ih member)

theorem take_of_done (done : values.next = (none, values)) (limit : Nat) :
    values.take limit = [] := by
  cases limit <;> simp [take, done]

theorem Yields.take_eq (yields : values.Yields places fault final) (limit : Nat) :
    values.take limit = (places.map Except.ok ++ fault.toList.map Except.error).take limit := by
  induction yields generalizing limit with
  | ended done => simp [take_of_done done]
  | failed step idle =>
    cases limit with
    | zero => rfl
    | succ limit => simp [take, step, take_of_done idle]
  | passed step later ih =>
    cases limit with
    | zero => rfl
    | succ limit => simp [take, step, ih]

def after : Nat → Values → Values
  | 0, values => values
  | count + 1, values => values.next.2.after count

theorem Yields.after_eq (yields : values.Yields places fault final) :
    values.after places.length = final := by
  induction yields with
  | ended | failed => rfl
  | passed step later ih => simpa [after, step] using ih

theorem gap_add (last value : UInt64) (ordered : last ≤ value) :
    last.toNat + (value - last).toNat = value.toNat := by
  rw [UInt64.toNat_sub_of_le _ _ ordered]
  have order := UInt64.le_iff_toNat_le.mp ordered
  omega

theorem advance_sub (last value : UInt64) (ordered : last ≤ value) :
    advance last (.ok (value - last)) = .ok value := by
  have sum := gap_add last value ordered
  have fits : last.toNat + (value - last).toNat < UInt64.size := by
    rw [sum]
    exact value.toNat_lt
  -- The gap is a difference modulo `2 ^ 64`, and adding it up again does not overflow.
  have whole : last + (value - last) = value := by
    apply UInt64.toNat_inj.mp
    rw [UInt64.toNat_add, sum]
    exact Nat.mod_eq_of_lt value.toNat_lt
  rw [advance, if_pos fits, whole]

theorem next_of_coded (values : Values) (value : UInt64) (rest : Bits)
    (more : 0 < values.remaining) (ordered : values.last ≤ value)
    (coded : values.cursor.bits =
      Rice.code values.p.toNat (value - values.last).toNat ++ rest) :
    ∃ cursor, values.next = (some (.ok value), { values with
        cursor := cursor, remaining := values.remaining - 1, last := value }) ∧
      cursor.bits = rest ∧
      cursor.position + rest.length = values.cursor.position + values.cursor.bits.length := by
  have follows := values.cursor.readRice_follows values.p.toNat
  have plain := Bits.readRice_append values.p.toNat (value - values.last) rest
  rw [← coded] at plain
  rw [plain] at follows
  obtain ⟨cursor, read, unread, moved⟩ := follows.exists_after
  obtain ⟨remaining, count⟩ := Nat.exists_eq_succ_of_ne_zero (Nat.ne_of_gt more)
  exact ⟨cursor, by simp [next, count, read, advance_sub _ _ ordered], unread, moved⟩

theorem yields_of_coded (values : Values) (places : List UInt64) (rest : Bits)
    (count : values.remaining = places.length)
    (sorted : (values.last :: places).Pairwise (· ≤ ·))
    (coded : values.cursor.bits = (gaps values.last places).flatMap
      (fun gap => Rice.code values.p.toNat gap.toNat) ++ rest) :
    ∃ final, values.Yields places none final ∧ final.cursor.bits = rest ∧
      final.cursor.position + rest.length =
        values.cursor.position + values.cursor.bits.length := by
  -- On the places still to come: the cursor is at the code of their first gap.
  induction places generalizing values with
  | nil =>
    have done : values.next = (none, values) := by
      simp only [List.length_nil] at count
      simp [next, count]
    refine ⟨values, .ended done, coded, ?_⟩
    rw [coded]
    rfl
  | cons value places ih =>
    have ordered : values.last ≤ value := List.rel_of_pairwise_cons sorted (List.mem_cons_self ..)
    rw [gaps, List.flatMap_cons, List.append_assoc] at coded
    obtain ⟨cursor, step, unread, moved⟩ :=
      values.next_of_coded value _ (by simp [count]) ordered coded
    obtain ⟨final, later, last, position⟩ :=
      ih { values with cursor := cursor, remaining := values.remaining - 1, last := value }
        (by simp [count]) (List.Pairwise.of_cons sorted) unread
    refine ⟨final, .passed step later, last, ?_⟩
    rw [position, ← moved, unread]

end GolombSet.Values

namespace GolombSet.Filter

theorem yields_ofSorted (count : UInt32) (parameter : Parameter) (places : List UInt64)
    (enough : count.toNat = places.length) (sorted : places.Pairwise (· ≤ ·)) :
    ∃ final, (ofSorted count parameter places).values.Yields places none final ∧
      final.cursor.position = (encodeGaps parameter.toNat places).length ∧
      final.cursor.bits =
        List.replicate (encodeGaps parameter.toNat places).padding false := by
  have coded : (ofSorted count parameter places).values.cursor.bits =
      (gaps 0 places).flatMap (fun gap => Rice.code parameter.toNat gap.toNat) ++
        List.replicate (encodeGaps parameter.toNat places).padding false := by
    rw [values, RawFilter.values, BitCursor.bits_ofBytes, raw, ofSorted,
      BitBuffer.ofBytes_toBytes, bits_encodeGaps]
  have fromZero : (0 :: places).Pairwise (· ≤ ·) :=
    List.pairwise_cons.mpr ⟨fun _ _ => UInt64.zero_le, sorted⟩
  obtain ⟨final, yields, unread, moved⟩ :=
    Values.yields_of_coded (ofSorted count parameter places).values places _ enough fromZero coded
  refine ⟨final, yields, ?_, unread⟩
  rw [coded, List.length_append, ← bits_encodeGaps, BitBuffer.length_bits] at moved
  have start : (ofSorted count parameter places).values.cursor.position = 0 := rfl
  omega

end GolombSet.Filter
