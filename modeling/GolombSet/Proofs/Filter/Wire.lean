import GolombSet.Filter.Wire
import GolombSet.Proofs.CompactSize

set_option autoImplicit false

namespace GolombSet

theorem Parameter.check_value (parameter : Parameter) : check parameter.value = .ok parameter := by
  rw [check, dif_pos parameter.value_le]

theorem Parameter.value_of_check {p : UInt8} {parameter : Parameter}
    (checked : check p = .ok parameter) : parameter.value = p := by
  by_cases small : p ≤ 32
  · rw [check, dif_pos small] at checked
    cases checked
    rfl
  · rw [check, dif_neg small] at checked
    contradiction

namespace Filter

theorem decodeCount_encodeCount_append (count : UInt32) (data : Bytes) :
    decodeCount (encodeCount count ++ data) = .ok (count, data) := by
  have few : count.toUInt64.toNat < UInt32.size := count.toNat_lt
  have rest : (encodeCount count ++ data).drop (CompactSize.length count.toUInt64) = data := by
    rw [← CompactSize.length_encode, encodeCount, List.drop_left]
  have decoded := CompactSize.decode_encode_append count.toUInt64 data
  rw [encodeCount] at rest ⊢
  simp only [decodeCount, decoded, if_pos few, rest, UInt32.toUInt32_toUInt64]

theorem eq_append_of_decodeCount {bytes data : Bytes} {count : UInt32}
    (read : decodeCount bytes = .ok (count, data)) : bytes = encodeCount count ++ data := by
  unfold decodeCount at read
  cases decoded : CompactSize.decode bytes with
  | error reason => simp [decoded] at read
  | ok result =>
    obtain ⟨value, used⟩ := result
    obtain ⟨-, split⟩ := CompactSize.eq_encode_append_of_decode decoded
    by_cases few : value.toNat < UInt32.size
    · simp only [decoded, if_pos few, Except.ok.injEq, Prod.mk.injEq] at read
      obtain ⟨rfl, rfl⟩ := read
      have same : value.toUInt32.toUInt64 = value := by
        apply UInt64.toNat_inj.mp
        rw [UInt32.toNat_toUInt64, UInt64.toNat_toUInt32]
        exact Nat.mod_eq_of_lt few
      rwa [encodeCount, same]
    · simp [decoded, few] at read

theorem ofParts_eq_ok_iff (count : UInt32) (p : UInt8) (data : Bytes) (filter : Filter) :
    ofParts count p data = .ok filter ↔
      filter.count = count ∧ filter.parameter.value = p ∧ filter.data = data := by
  constructor
  · intro made
    cases checked : Parameter.check p with
    | error reason => simp [ofParts, checked, Except.map] at made
    | ok parameter =>
      simp only [ofParts, checked, Except.map, Except.ok.injEq] at made
      subst made
      exact ⟨rfl, Parameter.value_of_check checked, rfl⟩
  · rintro ⟨rfl, rfl, rfl⟩
    simp [ofParts, Parameter.check_value, Except.map]

theorem ofCounted_eq_ok_iff (p : UInt8) (bytes : Bytes) (filter : Filter) :
    ofCounted p bytes = .ok filter ↔ filter.parameter.value = p ∧ filter.toCounted = bytes := by
  constructor
  · intro read
    cases checked : Parameter.check p with
    | error reason => simp [ofCounted, checked, bind, Except.bind] at read
    | ok parameter =>
      cases decoded : decodeCount bytes with
      | error reason => simp [ofCounted, checked, decoded, bind, Except.bind] at read
      | ok result =>
        simp only [ofCounted, checked, decoded, bind, Except.bind, pure, Except.pure,
          Except.ok.injEq] at read
        subst read
        exact ⟨Parameter.value_of_check checked, (eq_append_of_decodeCount decoded).symm⟩
  · rintro ⟨rfl, rfl⟩
    simp [ofCounted, toCounted, Parameter.check_value, decodeCount_encodeCount_append, bind,
      Except.bind, pure, Except.pure]

theorem ofFull_eq_ok_iff (bytes : Bytes) (filter : Filter) :
    ofFull bytes = .ok filter ↔ filter.toFull = bytes := by
  constructor
  · intro read
    cases decoded : decodeCount bytes with
    | error reason => simp [ofFull, decoded, bind, Except.bind] at read
    | ok result =>
      obtain ⟨count, rest⟩ := result
      cases rest with
      | nil => simp [ofFull, decoded, bind, Except.bind] at read
      | cons p data =>
        simp only [ofFull, decoded, bind, Except.bind] at read
        obtain ⟨rfl, rfl, rfl⟩ := (ofParts_eq_ok_iff count p data filter).mp read
        exact (eq_append_of_decodeCount decoded).symm
  · rintro rfl
    simp [ofFull, toFull, decodeCount_encodeCount_append, bind, Except.bind, ofParts_eq_ok_iff]

theorem wire_forms_exact (filter : Filter) (p : UInt8) (bytes : Bytes) :
    ofParts filter.count filter.parameter.value filter.data = .ok filter ∧
      ofCounted filter.parameter.value filter.toCounted = .ok filter ∧
      ofFull filter.toFull = .ok filter ∧
      (ofCounted p bytes = .ok filter ↔ filter.parameter.value = p ∧ filter.toCounted = bytes) ∧
      (ofFull bytes = .ok filter ↔ filter.toFull = bytes) ∧
      ∀ other, other ≠ bytes →
        ¬(ofCounted p bytes = .ok filter ∧ ofCounted p other = .ok filter) ∧
          ¬(ofFull bytes = .ok filter ∧ ofFull other = .ok filter) := by
  refine ⟨?_, ?_, ?_, ?_, ?_, ?_⟩
  · exact (ofParts_eq_ok_iff _ _ _ filter).mpr ⟨rfl, rfl, rfl⟩
  · exact (ofCounted_eq_ok_iff _ _ filter).mpr ⟨rfl, rfl⟩
  · exact (ofFull_eq_ok_iff _ filter).mpr rfl
  · exact ofCounted_eq_ok_iff p bytes filter
  · exact ofFull_eq_ok_iff bytes filter
  · intro other different
    constructor
    · rintro ⟨first, second⟩
      have one := ((ofCounted_eq_ok_iff p bytes filter).mp first).2
      have two := ((ofCounted_eq_ok_iff p other filter).mp second).2
      exact different (two.symm.trans one)
    · rintro ⟨first, second⟩
      have one := (ofFull_eq_ok_iff bytes filter).mp first
      have two := (ofFull_eq_ok_iff other filter).mp second
      exact different (two.symm.trans one)

-- A count of three has one byte, so its three bytes are no filter.
example : ofFull [0xfd, 0x03, 0x00, 19] = .error .nonCanonicalCount := rfl

end Filter

end GolombSet
