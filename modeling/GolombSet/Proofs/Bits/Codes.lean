import GolombSet.Proofs.Bits.Reading
import GolombSet.Proofs.Words
import Mathlib.Algebra.Group.Nat.Defs

set_option autoImplicit false

namespace GolombSet

namespace Bits

theorem foldl_eq (bits : Bits) (start : Nat) :
    bits.foldl (fun value bit => 2 * value + bit.toNat) start =
      start * 2 ^ bits.length + toNat bits := by
  unfold toNat
  induction bits generalizing start with
  | nil => simp
  | cons bit rest ih =>
    rw [List.foldl_cons, List.foldl_cons, ih, ih (2 * 0 + bit.toNat), List.length_cons,
      Nat.pow_succ]
    grind

theorem toNat_cons (bit : Bool) (rest : Bits) :
    toNat (bit :: rest) = bit.toNat * 2 ^ rest.length + toNat rest := by
  rw [toNat, List.foldl_cons, Nat.mul_zero, Nat.zero_add]
  exact foldl_eq rest bit.toNat

theorem toNat_lt (bits : Bits) : toNat bits < 2 ^ bits.length := by
  induction bits with
  | nil => decide
  | cons bit rest ih =>
    have small := bit.toNat_le
    rw [toNat_cons, List.length_cons, Nat.pow_succ]
    have top := Nat.mul_le_mul_right (2 ^ rest.length) small
    omega

theorem ofNat_toNat (bits : Bits) : ofNat bits.length (toNat bits) = bits := by
  induction bits with
  | nil => rfl
  | cons bit rest ih =>
    have whole : low rest.length (toNat rest) = toNat rest := by
      rw [low, Nat.shiftLeft_eq, Nat.one_mul]
      exact Nat.mod_eq_of_lt (toNat_lt rest)
    have joined := ofNat_shiftLeft_add 1 rest.length bit.toNat (toNat rest)
    rw [whole, ih, Nat.shiftLeft_eq, ← toNat_cons, Nat.add_comm] at joined
    rw [List.length_cons, joined]
    cases bit <;> rfl

theorem unary_append_inj {ones others : Nat} {rest rest' : Bits}
    (same : List.replicate ones true ++ false :: rest =
      List.replicate others true ++ false :: rest') : ones = others ∧ rest = rest' := by
  have read := readUnary_append ones rest
  rw [same, readUnary_append] at read
  simp only [Prod.mk.injEq, Except.ok.injEq] at read
  exact ⟨read.1.symm, read.2.symm⟩

theorem readUnary_cases (bits : Bits) :
    (∃ ones rest, bits = List.replicate ones true ++ false :: rest ∧
        readUnary bits = (.ok ones, rest)) ∨
      (bits = List.replicate bits.length true ∧ readUnary bits = (.error .endOfStream, [])) := by
  induction bits with
  | nil => exact .inr ⟨rfl, rfl⟩
  | cons bit rest ih =>
    cases bit with
    | false => exact .inl ⟨0, rest, rfl, rfl⟩
    | true =>
      rcases ih with ⟨ones, later, split, read⟩ | ⟨endless, read⟩
      · refine .inl ⟨ones + 1, later, ?_, ?_⟩
        · rw [List.replicate_succ, List.cons_append, ← split]
        · rw [readUnary, read]
          rfl
      · refine .inr ⟨?_, ?_⟩
        · rw [List.length_cons, List.replicate_succ, ← endless]
        · rw [readUnary, read]
          rfl

end Bits

namespace Rice

theorem code_append_inj {p value other : Nat} {rest rest' : Bits}
    (same : code p value ++ rest = code p other ++ rest') : value = other ∧ rest = rest' := by
  rw [code, code, List.append_assoc, List.append_assoc, List.cons_append, List.cons_append] at same
  obtain ⟨quotient, low⟩ := Bits.unary_append_inj same
  have lengths : (Bits.ofNat p value).length = (Bits.ofNat p other).length := by
    rw [Bits.length_ofNat, Bits.length_ofNat]
  obtain ⟨field, later⟩ := List.append_inj low lengths
  have remainder := congrArg Bits.toNat field
  rw [Bits.toNat_ofNat, Bits.toNat_ofNat] at remainder
  refine ⟨?_, later⟩
  rw [Nat.shiftRight_eq_div_pow, Nat.shiftRight_eq_div_pow] at quotient
  simp only [Bits.low, Nat.shiftLeft_eq, Nat.one_mul] at remainder
  rw [← Nat.div_add_mod value (2 ^ p), ← Nat.div_add_mod other (2 ^ p), quotient, remainder]

theorem succ_le_length (p value : Nat) : p + 1 ≤ length p value := by
  rw [length, Nat.add_assoc, Nat.add_comm 1 p]
  exact Nat.le_add_left _ _

-- Every code has at least its zero and the bits of the remainder.
theorem length_mul_le_length_codes (p : Nat) (values : List Nat) :
    values.length * (p + 1) ≤ (values.flatMap (code p)).length := by
  induction values with
  | nil => simp
  | cons value values ih =>
    rw [List.flatMap_cons, List.length_append, List.length_cons, length_code, Nat.succ_mul,
      Nat.add_comm]
    exact Nat.add_le_add (succ_le_length p value) ih

theorem code_of_parts (quotient : Nat) (low : Bits) :
    code low.length (quotient * 2 ^ low.length + low.toNat) =
      List.replicate quotient true ++ false :: low := by
  have bound := low.toNat_lt
  have high : (quotient * 2 ^ low.length + low.toNat) >>> low.length = quotient := by
    rw [Nat.shiftRight_eq_div_pow, Nat.mul_comm, Nat.mul_add_div (Nat.two_pow_pos _),
      Nat.div_eq_of_lt bound, Nat.add_zero]
  have same : Bits.low low.length (quotient * 2 ^ low.length + low.toNat) = low.toNat := by
    rw [Bits.low, Nat.shiftLeft_eq, Nat.one_mul, Nat.add_comm, Nat.add_mul_mod_self_right]
    exact Nat.mod_eq_of_lt bound
  rw [code, high, ← Bits.ofNat_low, same, Bits.ofNat_toNat]

inductive Step (p ones : Nat) : Next → Prop
  | tooLarge (large : 2 ^ 64 ≤ ones * 2 ^ p) : Step p ones (.done (.error .overflow))
  | whole (none : p = 0) (fits : ones < 2 ^ 64) : Step p ones (.done (.ok (UInt64.ofNat ones)))
  | remainder {join : Nat → UInt64} (some : 0 < p) (fits : ones * 2 ^ p < 2 ^ 64)
    (joins : ∀ low < 2 ^ p, join low = UInt64.ofNat (ones * 2 ^ p + low)) :
    Step p ones (.remainder join)

theorem next_step {p : Nat} (small : p ≤ 64) (ones : Nat) : Step p ones (next p ones) := by
  have least : ones ≤ ones * 2 ^ p := Nat.le_mul_of_pos_right _ (Nat.two_pow_pos _)
  unfold next
  by_cases long : UInt64.size ≤ ones
  · rw [if_pos long]
    exact .tooLarge (Nat.le_trans long least)
  · have word : ones < 2 ^ 64 := Nat.lt_of_not_le long
    rw [if_neg long]
    by_cases none : p = 0
    · rw [if_pos none]
      exact .whole none word
    · have positive := Nat.pos_of_ne_zero none
      have lost := Word.shiftRight_ne_zero_iff positive small word
      rw [if_neg none]
      by_cases large : 2 ^ 64 ≤ ones * 2 ^ p
      · rw [if_pos (lost.mpr large)]
        exact .tooLarge large
      · rw [if_neg (mt lost.mp large)]
        have fits := Nat.lt_of_not_le large
        exact .remainder positive fits fun low below => Word.shiftLeft_or small fits below

theorem next_zero {p : Nat} (some : p ≠ 0) : next p 0 = .remainder UInt64.ofNat := by
  have word : ¬UInt64.size ≤ 0 := by decide
  simp [next, word, some]

end Rice

namespace Bits

theorem readRice_of_quotient {p : Nat} (small : p ≤ 64) (ones : Nat) (rest : Bits) :
    readRice p (List.replicate ones true ++ false :: rest) =
      if 2 ^ 64 ≤ ones * 2 ^ p then (.error .overflow, rest)
      else
        ((readField p rest).1.map (fun low => UInt64.ofNat (ones * 2 ^ p + low)),
          (readField p rest).2) := by
  have step := Rice.next_step small ones
  simp only [readRice, readUnary_append]
  generalize Rice.next p ones = next at step ⊢
  cases step with
  | tooLarge large => rw [if_pos large]
  | whole none fits =>
    subst none
    rw [Nat.pow_zero, Nat.mul_one, if_neg (Nat.not_le_of_lt fits)]
    rfl
  | remainder _ fits joins =>
    rw [if_neg (Nat.not_le_of_lt fits)]
    by_cases enough : p ≤ rest.length
    · have below := toNat_lt (rest.take p)
      rw [List.length_take_of_le enough] at below
      simp only [readField, enough, if_true, Except.map, joins _ below]
    · simp only [readField, enough, if_false, Except.map]

theorem readRice_append (p : Nat) (value : UInt64) (rest : Bits) :
    readRice p (Rice.code p value.toNat ++ rest) = (.ok value, rest) := by
  have split : value.toNat >>> p * 2 ^ p + low p value.toNat = value.toNat := by
    rw [low, Nat.shiftLeft_eq, Nat.one_mul, Nat.shiftRight_eq_div_pow]
    exact Nat.div_add_mod' _ _
  have bound := value.toNat_lt
  rw [Rice.code, List.append_assoc, List.cons_append]
  by_cases small : p ≤ 64
  · have fits : ¬2 ^ 64 ≤ value.toNat >>> p * 2 ^ p := by omega
    rw [readRice_of_quotient small, if_neg fits, readField_append, Except.map, split,
      UInt64.ofNat_toNat]
  · -- The remainder has room for the whole value.
    have wide : 2 ^ 64 ≤ 2 ^ p := Nat.pow_le_pow_right (by decide) (Nat.le_of_not_le small)
    have none : value.toNat >>> p = 0 := by
      rw [Nat.shiftRight_eq_div_pow]
      exact Nat.div_eq_of_lt (Nat.lt_of_lt_of_le bound wide)
    rw [none, Nat.zero_mul, Nat.zero_add] at split
    simp only [readRice, readUnary_append, none, Rice.next_zero (show p ≠ 0 by omega),
      readField_append, Except.map, split, UInt64.ofNat_toNat]

theorem readRice_cases (p : Nat) (small : p ≤ 64) (bits : Bits) :
    (∃ value rest, bits = Rice.code p value.toNat ++ rest ∧
        readRice p bits = (.ok value, rest)) ∨
      (∃ quotient rest, bits = List.replicate quotient true ++ false :: rest ∧
        2 ^ 64 ≤ quotient * 2 ^ p ∧ readRice p bits = (.error .overflow, rest)) ∨
      (∃ quotient rest, bits = List.replicate quotient true ++ false :: rest ∧
        quotient * 2 ^ p < 2 ^ 64 ∧ rest.length < p ∧
        readRice p bits = (.error .endOfStream, rest)) ∨
      (bits = List.replicate bits.length true ∧
        readRice p bits = (.error .endOfStream, [])) := by
  rcases readUnary_cases bits with ⟨quotient, rest, split, read⟩ | ⟨endless, read⟩
  · have next := readRice_of_quotient small quotient rest
    rw [← split] at next
    by_cases large : 2 ^ 64 ≤ quotient * 2 ^ p
    · rw [if_pos large] at next
      exact .inr (.inl ⟨quotient, rest, split, large, next⟩)
    · have fits := Nat.lt_of_not_le large
      rw [if_neg large] at next
      by_cases enough : p ≤ rest.length
      · let low : Bits := rest.take p
        have width : low.length = p := List.length_take_of_le enough
        have bound := low.toNat_lt
        rw [width] at bound
        have exact : (UInt64.ofNat (quotient * 2 ^ p + low.toNat)).toNat =
            quotient * 2 ^ p + low.toNat :=
          Nat.mod_eq_of_lt (Word.add_lt_of_fits small fits bound)
        have code := Rice.code_of_parts quotient low
        rw [width] at code
        refine .inl ⟨UInt64.ofNat (quotient * 2 ^ p + low.toNat), rest.drop p, ?_, ?_⟩
        · rw [exact, code, split, List.append_assoc, List.cons_append, List.take_append_drop]
        · rw [next]
          simp [readField, enough, Except.map, low]
      · refine .inr (.inr (.inl ⟨quotient, rest, split, fits, Nat.lt_of_not_le enough, ?_⟩))
        rw [next]
        simp [readField, enough, Except.map]
  · refine .inr (.inr (.inr ⟨endless, ?_⟩))
    simp [readRice, read]

theorem readRice_append_of_ne {p : Nat} (small : p ≤ 64) {bits : Bits} (more : Bits)
    (decided : (readRice p bits).1 ≠ .error .endOfStream) :
    readRice p (bits ++ more) = ((readRice p bits).1, (readRice p bits).2 ++ more) := by
  rcases readRice_cases p small bits with ⟨value, rest, split, read⟩ |
    ⟨quotient, rest, split, large, read⟩ | ⟨quotient, rest, -, -, -, read⟩ | ⟨-, read⟩
  · rw [read, split, List.append_assoc, readRice_append]
  · rw [read, split, List.append_assoc, List.cons_append, readRice_of_quotient small,
      if_pos large]
  all_goals
    rw [read] at decided
    exact absurd rfl decided

end Bits

namespace Rice

def Overflows (p : Nat) (bits : Bits) : Prop :=
  ∃ quotient rest, bits = List.replicate quotient true ++ false :: rest ∧
    2 ^ 64 ≤ quotient * 2 ^ p

def Interrupted (p : Nat) (bits : Bits) : Prop :=
  ∃ value, bits <+: code p value ∧ bits ≠ code p value

theorem not_interrupted_code_append (p value : Nat) (rest : Bits) :
    ¬Interrupted p (code p value ++ rest) := by
  rintro ⟨other, ⟨more, whole⟩, proper⟩
  rw [List.append_assoc, ← List.append_nil (code p other)] at whole
  obtain ⟨rfl, none⟩ := code_append_inj whole
  obtain ⟨rfl, -⟩ := List.append_eq_nil_iff.mp none
  exact proper (List.append_nil _)

theorem interrupted_of_short {p : Nat} (quotient : Nat) {rest : Bits} (short : rest.length < p) :
    Interrupted p (List.replicate quotient true ++ false :: rest) := by
  let low : Bits := rest ++ List.replicate (p - rest.length) false
  have width : low.length = p := by
    rw [List.length_append, List.length_replicate]
    omega
  have code := code_of_parts quotient low
  rw [width] at code
  refine ⟨quotient * 2 ^ p + low.toNat, ?_, ?_⟩
  · rw [code]
    exact ⟨List.replicate (p - rest.length) false, by simp [low]⟩
  · intro same
    have lengths := congrArg List.length (same.trans code)
    simp only [List.length_append, List.length_cons, width] at lengths
    omega

theorem interrupted_of_ones (p ones : Nat) : Interrupted p (List.replicate ones true) := by
  have code := code_of_parts ones (List.replicate p false)
  rw [List.length_replicate] at code
  refine ⟨_, ⟨_, code.symm⟩, ?_⟩
  intro same
  have lengths := congrArg List.length (same.trans code)
  simp at lengths

theorem not_overflows_of_fits {p quotient : Nat} (fits : quotient * 2 ^ p < 2 ^ 64)
    (rest : Bits) :
    ¬Overflows p (List.replicate quotient true ++ false :: rest) := by
  rintro ⟨other, later, split, large⟩
  obtain ⟨rfl, -⟩ := Bits.unary_append_inj split
  omega

theorem not_overflows_of_ones (p ones : Nat) : ¬Overflows p (List.replicate ones true) := by
  rintro ⟨other, later, split, -⟩
  have zero : false ∈ List.replicate ones true := by simp [split]
  simp at zero

theorem ne_code_append_of_interrupted {p : Nat} {bits : Bits} (interrupted : Interrupted p bits)
    (value : Nat) (rest : Bits) : bits ≠ code p value ++ rest := by
  rintro rfl
  exact not_interrupted_code_append p value rest interrupted

end Rice

end GolombSet
