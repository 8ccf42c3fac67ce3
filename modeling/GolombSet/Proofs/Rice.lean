import GolombSet.Proofs.Bits.Positions

set_option autoImplicit false

namespace GolombSet

namespace Rice

/-- What is answered to these bits, and how many of them are passed over. -/
inductive Outcome (p : Nat) (bits : Bits) : Except StreamError UInt64 → Nat → Prop
  | code {value : UInt64} {rest : Bits} (split : bits = Rice.code p value.toNat ++ rest) :
    Outcome p bits (.ok value) (length p value.toNat)
  | overflow {quotient : Nat} {rest : Bits}
    (split : bits = List.replicate quotient true ++ false :: rest)
    (large : 2 ^ 64 ≤ quotient * 2 ^ p) : Outcome p bits (.error .overflow) (quotient + 1)
  | short {quotient : Nat} {rest : Bits}
    (split : bits = List.replicate quotient true ++ false :: rest)
    (fits : quotient * 2 ^ p < 2 ^ 64) (missing : rest.length < p) :
    Outcome p bits (.error .endOfStream) (quotient + 1)
  | endless (ones : bits = List.replicate bits.length true) :
    Outcome p bits (.error .endOfStream) bits.length

theorem not_overflows_code_append (p : Nat) (value : UInt64) (rest : Bits) :
    ¬Overflows p (code p value.toNat ++ rest) := by
  have fits : value.toNat >>> p * 2 ^ p < 2 ^ 64 := by
    rw [Nat.shiftRight_eq_div_pow]
    exact Nat.lt_of_le_of_lt (Nat.div_mul_le_self _ _) value.toNat_lt
  rw [code, List.append_assoc, List.cons_append]
  exact not_overflows_of_fits fits _

namespace Outcome

variable {p passed : Nat} {bits : Bits} {answer : Except StreamError UInt64}

theorem ok_iff (outcome : Outcome p bits answer passed) (value : UInt64) :
    answer = .ok value ↔ Rice.code p value.toNat <+: bits := by
  constructor
  · rintro rfl
    cases outcome with
    | code split => exact ⟨_, split.symm⟩
  · rintro ⟨rest, rfl⟩
    have whole := not_interrupted_code_append p value.toNat rest
    cases outcome with
    | code split =>
      have same := (code_append_inj split).1
      rw [UInt64.toNat_inj.mp same]
    | overflow split large =>
      exact absurd ⟨_, _, split, large⟩ (not_overflows_code_append p value rest)
    | short split _ missing =>
      rw [split] at whole
      exact absurd (interrupted_of_short _ missing) whole
    | endless ones =>
      rw [ones] at whole
      exact absurd (interrupted_of_ones p _) whole

theorem overflow_iff (outcome : Outcome p bits answer passed) :
    answer = .error .overflow ↔ Overflows p bits := by
  cases outcome with
  | code split => simp [split, not_overflows_code_append]
  | overflow split large => exact iff_of_true rfl ⟨_, _, split, large⟩
  | short split fits =>
    rw [split]
    simp [not_overflows_of_fits fits]
  | endless ones =>
    rw [ones]
    simp [not_overflows_of_ones]

theorem endOfStream_iff (outcome : Outcome p bits answer passed) :
    answer = .error .endOfStream ↔
      (∀ value : UInt64, ¬Rice.code p value.toNat <+: bits) ∧ ¬Overflows p bits := by
  simp only [← outcome.ok_iff, ← outcome.overflow_iff]
  cases answer with
  | ok value => simp
  | error reason => cases reason <;> simp

theorem passed_of_ok {value : UInt64} (outcome : Outcome p bits (.ok value) passed) :
    passed = length p value.toNat := by
  cases outcome
  rfl

theorem passed_of_error {reason : StreamError} (outcome : Outcome p bits (.error reason) passed)
    {quotient : Nat} {rest : Bits} (ended : bits = List.replicate quotient true ++ false :: rest) :
    passed = quotient + 1 := by
  cases outcome with
  | overflow split | short split =>
    rw [(Bits.unary_append_inj (ended.symm.trans split)).1]
  | endless ones =>
    have zero : false ∈ bits := by simp [ended]
    rw [ones] at zero
    simp at zero

theorem passed_of_endless (outcome : Outcome p bits answer passed) (endless : false ∉ bits) :
    passed = bits.length := by
  cases outcome with
  | code split => simp [split, Rice.code] at endless
  | overflow split | short split => simp [split] at endless
  | endless => rfl

end Outcome

end Rice

theorem Bits.readRice_outcome {p : Nat} (small : p ≤ 64) (bits : Bits) :
    ∃ passed, Rice.Outcome p bits (bits.readRice p).1 passed ∧
      passed + (bits.readRice p).2.length = bits.length := by
  rcases bits.readRice_cases p small with ⟨value, rest, split, read⟩ |
    ⟨quotient, rest, split, large, read⟩ | ⟨quotient, rest, split, fits, missing, read⟩ |
    ⟨ones, read⟩
  · rw [read]
    refine ⟨_, .code split, ?_⟩
    rw [split, List.length_append, Rice.length_code]
  · rw [read]
    refine ⟨_, .overflow split large, ?_⟩
    simp [split]
    omega
  · rw [read]
    refine ⟨_, .short split fits missing, ?_⟩
    simp [split]
    omega
  · rw [read]
    exact ⟨_, .endless ones, rfl⟩

namespace BitCursor

theorem StandsIn.afterAll {bits : Bits} {cursor : BitCursor} (stands : cursor.StandsIn bits)
    (shapes : List Shape) : (cursor.afterAll shapes).StandsIn bits := by
  induction shapes generalizing cursor with
  | nil => exact stands
  | cons shape shapes ih => exact ih (stands.read shape).2.2

theorem readRice_outcome {p : Nat} (small : p ≤ 64) (cursor : BitCursor) :
    ∃ passed, Rice.Outcome p cursor.bits (cursor.readRice p).1 passed ∧
      (cursor.readRice p).2.position = cursor.position + passed := by
  have follows := cursor.readRice_follows p
  obtain ⟨passed, outcome, total⟩ := cursor.bits.readRice_outcome small
  have moved := follows.moved
  rw [← length_bits, ← length_bits, follows.unread] at moved
  refine ⟨passed, follows.answer ▸ outcome, ?_⟩
  omega

theorem readRice_exact (data : Bytes) (shapes : List Shape) (p : Nat) (small : p ≤ 63) :
    let bits := Bits.ofBytes data
    let cursor := (ofBytes data).afterAll shapes
    let unread := bits.drop cursor.position
    let written (value : UInt64) := (BitBuffer.empty.appendRice p value).bits
    let step := cursor.readRice p
    (∀ value, step.1 = .ok value ↔ written value <+: unread) ∧
      (step.1 = .error .overflow ↔ Rice.Overflows p unread) ∧
      (step.1 = .error .endOfStream ↔
        (∀ value, ¬written value <+: unread) ∧ ¬Rice.Overflows p unread) ∧
      (∀ value, step.1 = .ok value →
        step.2.position = cursor.position + Rice.length p value.toNat) ∧
      (∀ reason quotient rest, step.1 = .error reason →
        unread = List.replicate quotient true ++ false :: rest →
          step.2.position = cursor.position + quotient + 1) ∧
      (false ∉ unread → step.2.position = 8 * data.length) ∧
      step.2.bits = bits.drop step.2.position := by
  intro bits cursor unread written step
  have stands : cursor.StandsIn bits := (standsIn_ofBytes data).afterAll shapes
  have next : step.2.StandsIn bits := (stands.read (.rice p)).2.2
  obtain ⟨passed, outcome, moved⟩ := readRice_outcome (Nat.le_succ_of_le small) cursor
  rw [stands.unread] at outcome
  have code (value : UInt64) : written value = Rice.code p value.toNat :=
    BitBuffer.bits_appendRice _ p value
  simp only [code]
  refine ⟨outcome.ok_iff, outcome.overflow_iff, outcome.endOfStream_iff, ?_, ?_, ?_, next.unread⟩
  · intro value read
    have outcome : Rice.Outcome p unread (.ok value) passed := read ▸ outcome
    rw [← outcome.passed_of_ok]
    exact moved
  · intro reason quotient rest read ended
    have outcome : Rice.Outcome p unread (.error reason) passed := read ▸ outcome
    rw [Nat.add_assoc, ← outcome.passed_of_error ended]
    exact moved
  · intro endless
    have within := stands.within
    have size : bits.length = 8 * data.length := Bits.length_ofBytes data
    have all := outcome.passed_of_endless endless
    rw [List.length_drop] at all
    show (cursor.readRice p).2.position = 8 * data.length
    omega

theorem readRice_exact_quotient_too_large :
    let cursor := (ofBytes [0xff, 0xf7]).afterAll [.field 17, .field 8]
    let step := cursor.readRice 62
    62 ≤ 63 ∧ cursor.position = 8 ∧ step.1 = .error .overflow ∧ step.2.position = 13 := by
  intro cursor step
  have small : 62 ≤ 63 := by decide
  have here : cursor.position = 8 := by decide +kernel
  -- Four ones and a zero, and three of the 62 bits that should follow.
  have unread : (Bits.ofBytes [0xff, 0xf7]).drop cursor.position =
      List.replicate 4 true ++ false :: [true, true, true] := by rw [here]; rfl
  obtain ⟨-, overflow, -, -, stopped, -⟩ :=
    readRice_exact [0xff, 0xf7] [.field 17, .field 8] 62 small
  have refused : step.1 = .error .overflow :=
    overflow.mpr ⟨4, [true, true, true], unread, by decide⟩
  have after := stopped .overflow 4 [true, true, true] refused unread
  exact ⟨small, here, refused, by rw [after, here]⟩

end BitCursor

end GolombSet
