import GolombSet.Proofs.CompactSize.Canonical
import GolombSet.Proofs.Filter.Wire

set_option autoImplicit false

namespace GolombSet.Filter

inductive CountRefused (bytes : Bytes) : FilterError → Prop
  | cutShort (cut : CompactSize.CutShort bytes) : CountRefused bytes .endOfStream
  | overlong (value : UInt64) (longer : CompactSize.Overlong value bytes) :
    CountRefused bytes .nonCanonicalCount
  | tooMany (value : UInt64) (many : UInt32.size ≤ value.toNat)
    (start : CompactSize.encode value <+: bytes) :
    CountRefused bytes (.tooManyEntries value.toNat)

inductive CountedRefused (p : UInt8) (bytes : Bytes) : FilterError → Prop
  | parameter (large : 32 < p) : CountedRefused p bytes (.parameterTooBig p)
  | count {reason : FilterError} (small : p ≤ 32) (refused : CountRefused bytes reason) :
    CountedRefused p bytes reason

inductive FullRefused (bytes : Bytes) : FilterError → Prop
  | count {reason : FilterError} (refused : CountRefused bytes reason) : FullRefused bytes reason
  | noParameter (count : UInt32) (whole : bytes = encodeCount count) :
    FullRefused bytes .endOfStream
  | parameter (count : UInt32) (p : UInt8) (large : 32 < p)
    (start : encodeCount count ++ [p] <+: bytes) : FullRefused bytes (.parameterTooBig p)

theorem decodeCount_eq_ok_iff (bytes data : Bytes) (count : UInt32) :
    decodeCount bytes = .ok (count, data) ↔ bytes = encodeCount count ++ data := by
  constructor
  · exact eq_append_of_decodeCount
  · rintro rfl
    exact decodeCount_encodeCount_append count data

theorem decodeCount_eq_error_iff (bytes : Bytes) (reason : FilterError) :
    decodeCount bytes = .error reason ↔ CountRefused bytes reason := by
  constructor
  · intro read
    unfold decodeCount at read
    cases decoded : CompactSize.decode bytes with
    | error fault =>
      rw [decoded] at read
      cases fault with
      | truncated =>
        cases read
        exact .cutShort ((CompactSize.decode_eq_truncated_iff bytes).mp decoded)
      | nonCanonical value =>
        cases read
        exact .overlong value ((CompactSize.decode_eq_nonCanonical_iff bytes value).mp decoded)
    | ok result =>
      obtain ⟨value, used⟩ := result
      obtain ⟨start, -⟩ := (CompactSize.decode_eq_ok_iff bytes value used).mp decoded
      by_cases few : value.toNat < UInt32.size
      · simp [decoded, few] at read
      · simp only [decoded, if_neg few, Except.error.injEq] at read
        subst read
        exact .tooMany value (Nat.le_of_not_lt few) start
  · intro refused
    unfold decodeCount
    cases refused with
    | cutShort cut =>
      rw [(CompactSize.decode_eq_truncated_iff bytes).mpr cut]
      rfl
    | overlong value longer =>
      rw [(CompactSize.decode_eq_nonCanonical_iff bytes value).mpr longer]
      rfl
    | tooMany value many start =>
      rw [(CompactSize.decode_eq_ok_iff bytes value _).mpr ⟨start, rfl⟩]
      exact if_neg (Nat.not_lt_of_le many)

theorem ofParts_eq_error_iff (count : UInt32) (p : UInt8) (data : Bytes) (reason : FilterError) :
    ofParts count p data = .error reason ↔ 32 < p ∧ reason = .parameterTooBig p := by
  by_cases small : p ≤ 32
  · have within : ¬32 < p := UInt8.not_lt.mpr small
    simp [ofParts, Parameter.check, small, within, Except.map]
  · have large : 32 < p := UInt8.not_le.mp small
    simp [ofParts, Parameter.check, small, large, Except.map, eq_comm]

theorem ofCounted_of_large {p : UInt8} (large : ¬p ≤ 32) (bytes : Bytes) :
    ofCounted p bytes = .error (.parameterTooBig p) := by
  simp [ofCounted, Parameter.check, large, bind, Except.bind]

theorem ofCounted_of_small {p : UInt8} (small : p ≤ 32) (bytes : Bytes) :
    ofCounted p bytes = (decodeCount bytes).map fun read => ⟨read.1, ⟨p, small⟩, read.2⟩ := by
  cases read : decodeCount bytes <;>
    simp [ofCounted, Parameter.check, small, read, bind, Except.bind, pure, Except.pure, Except.map]

theorem ofCounted_eq_error_iff (p : UInt8) (bytes : Bytes) (reason : FilterError) :
    ofCounted p bytes = .error reason ↔ CountedRefused p bytes reason := by
  by_cases small : p ≤ 32
  · rw [ofCounted_of_small small]
    constructor
    · intro refused
      cases read : decodeCount bytes with
      | error fault =>
        rw [read] at refused
        cases refused
        exact .count small ((decodeCount_eq_error_iff bytes reason).mp read)
      | ok result =>
        rw [read] at refused
        cases refused
    · intro refused
      cases refused with
      | parameter large => exact absurd small (UInt8.not_le.mpr large)
      | count _ refused =>
        rw [(decodeCount_eq_error_iff bytes reason).mpr refused]
        rfl
  · rw [ofCounted_of_large small]
    constructor
    · intro refused
      cases refused
      exact .parameter (UInt8.not_le.mp small)
    · intro refused
      cases refused with
      | parameter => rfl
      | count within => exact absurd within small

theorem ofFull_of_error {bytes : Bytes} {reason : FilterError}
    (read : decodeCount bytes = .error reason) : ofFull bytes = .error reason := by
  simp [ofFull, read, bind, Except.bind]

theorem ofFull_of_nil {bytes : Bytes} {count : UInt32} (read : decodeCount bytes = .ok (count, [])) :
    ofFull bytes = .error .endOfStream := by
  simp [ofFull, read, bind, Except.bind]

theorem ofFull_of_cons {bytes data : Bytes} {count : UInt32} {p : UInt8}
    (read : decodeCount bytes = .ok (count, p :: data)) : ofFull bytes = ofParts count p data := by
  simp [ofFull, read, bind, Except.bind]

theorem ofFull_eq_error_iff (bytes : Bytes) (reason : FilterError) :
    ofFull bytes = .error reason ↔ FullRefused bytes reason := by
  constructor
  · intro refused
    cases read : decodeCount bytes with
    | error fault =>
      rw [ofFull_of_error read] at refused
      cases refused
      exact .count ((decodeCount_eq_error_iff bytes reason).mp read)
    | ok result =>
      obtain ⟨count, rest⟩ := result
      have split := (decodeCount_eq_ok_iff bytes rest count).mp read
      cases rest with
      | nil =>
        rw [ofFull_of_nil read] at refused
        cases refused
        rw [List.append_nil] at split
        exact .noParameter count split
      | cons p data =>
        rw [ofFull_of_cons read] at refused
        obtain ⟨large, rfl⟩ := (ofParts_eq_error_iff count p data reason).mp refused
        refine .parameter count p large ⟨data, ?_⟩
        rw [split, List.append_assoc, List.singleton_append]
  · intro refused
    cases refused with
    | count refused => exact ofFull_of_error ((decodeCount_eq_error_iff bytes reason).mpr refused)
    | noParameter count whole =>
      rw [← List.append_nil (encodeCount count)] at whole
      exact ofFull_of_nil ((decodeCount_eq_ok_iff bytes [] count).mpr whole)
    | parameter count p large start =>
      obtain ⟨data, split⟩ := start
      rw [List.append_assoc, List.singleton_append] at split
      rw [ofFull_of_cons ((decodeCount_eq_ok_iff bytes (p :: data) count).mpr split.symm)]
      exact (ofParts_eq_error_iff count p data _).mpr ⟨large, rfl⟩

theorem exists_ok_iff {A : Type} (answer : Except FilterError A) :
    (∃ value, answer = .ok value) ↔ ∀ reason, answer ≠ .error reason := by
  cases answer with
  | error reason => simp
  | ok value => simp

theorem refusals_exact (p : UInt8) (bytes : Bytes) :
    (∀ reason, ofFull bytes = .error reason ↔ FullRefused bytes reason) ∧
      ((∃ filter, ofFull bytes = .ok filter) ↔ ∀ reason, ¬FullRefused bytes reason) ∧
      (∀ reason, ofCounted p bytes = .error reason ↔ CountedRefused p bytes reason) ∧
      ((∃ filter, ofCounted p bytes = .ok filter) ↔
        ∀ reason, ¬CountedRefused p bytes reason) := by
  refine ⟨ofFull_eq_error_iff bytes, ?_, ofCounted_eq_error_iff p bytes, ?_⟩
  · rw [exists_ok_iff]
    exact forall_congr' fun reason => not_congr (ofFull_eq_error_iff bytes reason)
  · rw [exists_ok_iff]
    exact forall_congr' fun reason => not_congr (ofCounted_eq_error_iff p bytes reason)

-- The smallest count that is too large, without a parameter after it.
example : ofFull [0xff, 0, 0, 0, 0, 1, 0, 0, 0] = .error (.tooManyEntries 4294967296) := rfl

end GolombSet.Filter
