import GolombSet.Proofs.Bytes
import GolombSet.Proofs.Hex

set_option autoImplicit false

namespace GolombSet

namespace Key

theorem ofBytes?_eq_some_iff (bytes : Bytes) (key : Key) :
    ofBytes? bytes = some key ↔ key.bytes = bytes :=
  Bytes.sized?_eq_some_iff (fun _ _ => rfl) (fun key => ⟨key.length_bytes, rfl⟩) bytes key

theorem parse_eq_ok_iff (text : String) (key : Key) :
    parse text = .ok key ↔ text.toLower = key.text :=
  Hex.parse_eq_ok_iff ofBytes?_eq_some_iff length_bytes _ _ text key

end Key

namespace Digest

theorem ofReverse?_eq_some_iff (bytes : Bytes) (digest : Digest) :
    ofBytes? bytes.reverse = some digest ↔ digest.bytes.reverse = bytes :=
  (Bytes.sized?_eq_some_iff (fun _ _ => rfl) (fun digest => ⟨digest.length_bytes, rfl⟩)
    bytes.reverse digest).trans List.reverse_eq_iff.symm

theorem parse_eq_ok_iff (text : String) (digest : Digest) :
    parse text = .ok digest ↔ text.toLower = digest.text :=
  Hex.parse_eq_ok_iff ofReverse?_eq_some_iff
    (fun digest => (List.length_reverse ..).trans digest.length_bytes) _ _ text digest

theorem parse_cases (text : String) :
    (text.utf8ByteSize ≠ 64 ∧ parse text = .error (.invalidLength text.utf8ByteSize)) ∨
      (text.utf8ByteSize = 64 ∧ (¬∀ c ∈ text.toList, Hex.IsDigit c) ∧
        parse text = .error .invalidHex) ∨
      (text.utf8ByteSize = 64 ∧ (∀ c ∈ text.toList, Hex.IsDigit c) ∧
        ∃ digest, parse text = .ok digest) := by
  by_cases size : text.utf8ByteSize = 64
  · by_cases all : ∀ c ∈ text.toList, Hex.IsDigit c
    · have length : text.length = 2 * 32 := by
        rw [← String.length_toList, ← Hex.utf8ByteSize_ofList _ all, String.ofList_toList, size]
      obtain ⟨-, bytes, read, count⟩ := Hex.exists_decode 32 text length all
      let digest : Digest := ⟨bytes.reverse, by rw [List.length_reverse, count]⟩
      refine .inr (.inr ⟨size, all, digest, (parse_eq_ok_iff text digest).mpr ?_⟩)
      rw [Digest.text, List.reverse_reverse]
      exact (Hex.decode_eq_some_iff text bytes).mp read
    · refine .inr (.inl ⟨size, all, ?_⟩)
      cases read : Hex.decode text with
      | none => simp [parse, Hex.parse, size, read]
      | some bytes => exact absurd (Hex.isDigit_of_decodeDigits read) all
  · exact .inl ⟨size, if_pos size⟩

theorem parse_eq_invalidLength_iff (text : String) (found : Nat) :
    parse text = .error (.invalidLength found) ↔ text.utf8ByteSize = found ∧ found ≠ 64 := by
  rcases parse_cases text with ⟨other, parsed⟩ | ⟨size, -, parsed⟩ | ⟨size, -, digest, parsed⟩
  · rw [parsed]
    simp only [Except.error.injEq, DigestError.invalidLength.injEq]
    exact ⟨fun same => ⟨same, same ▸ other⟩, fun both => both.1⟩
  · rw [parsed, size]
    simpa using Eq.symm
  · rw [parsed, size]
    simpa using Eq.symm

theorem parse_eq_invalidHex_iff (text : String) :
    parse text = .error .invalidHex ↔
      text.utf8ByteSize = 64 ∧ ¬∀ c ∈ text.toList, Hex.IsDigit c := by
  rcases parse_cases text with ⟨other, parsed⟩ | ⟨size, strange, parsed⟩ |
    ⟨size, all, digest, parsed⟩
  · simp [parsed, other]
  · rw [parsed]
    exact ⟨fun _ => ⟨size, strange⟩, fun _ => rfl⟩
  · rw [parsed]
    exact ⟨nofun, fun both => absurd all both.2⟩

theorem exists_parse_iff (text : String) :
    (∃ digest, parse text = .ok digest) ↔
      text.utf8ByteSize = 64 ∧ ∀ c ∈ text.toList, Hex.IsDigit c := by
  rcases parse_cases text with ⟨other, parsed⟩ | ⟨size, strange, parsed⟩ | ⟨size, all, found⟩
  · simp [parsed, other]
  · rw [parsed]
    exact ⟨nofun, fun both => absurd both.2 strange⟩
  · exact ⟨fun _ => ⟨size, all⟩, fun _ => found⟩

theorem parse_text (digest : Digest) : parse digest.text = .ok digest := by
  have read := (Hex.decode_eq_some_iff _ _).mp (Hex.decode_encode digest.bytes.reverse)
  exact (parse_eq_ok_iff digest.text digest).mpr read

theorem pairAt_text (digest : Digest) (i : Fin 32) :
    Hex.PairAt digest.text (62 - 2 * i) (digest.bytes.get (i.cast digest.length_bytes.symm)) := by
  have length := digest.length_bytes
  have inside : 31 - i.val < digest.bytes.length := by omega
  have mirrored : digest.bytes.length - 1 - (31 - i.val) = i.val := by omega
  have found : digest.bytes.reverse[31 - i.val]? =
      some (digest.bytes.get (i.cast digest.length_bytes.symm)) := by
    rw [List.getElem?_reverse inside, mirrored]
    exact List.getElem?_eq_getElem _
  rw [show 62 - 2 * i.val = 2 * (31 - i.val) by omega]
  exact Hex.pairAt_encode found

theorem text_exact (text : String) (digest : Digest) :
    let bytes := text.toUTF8.data.toList
    (∀ found, parse text = .error (.invalidLength found) ↔
        text.utf8ByteSize = found ∧ found ≠ 64) ∧
      (parse text = .error .invalidHex ↔
        text.utf8ByteSize = 64 ∧ ∃ byte ∈ bytes, ¬Hex.IsDigit (Char.ofUInt8 byte)) ∧
      ((∃ digest, parse text = .ok digest) ↔
        text.utf8ByteSize = 64 ∧ ∀ byte ∈ bytes, Hex.IsDigit (Char.ofUInt8 byte)) ∧
      (parse text = .ok digest ↔ text.toLower = digest.text) ∧
      parse digest.text = .ok digest ∧
      ∀ i : Fin 32,
        Hex.PairAt digest.text (62 - 2 * i) (digest.bytes.get (i.cast digest.length_bytes.symm)) := by
  intro bytes
  have digits : (∀ byte ∈ bytes, Hex.IsDigit (Char.ofUInt8 byte)) ↔
      ∀ c ∈ text.toList, Hex.IsDigit c := Hex.forall_isDigit_iff text
  have strange : (∃ byte ∈ bytes, ¬Hex.IsDigit (Char.ofUInt8 byte)) ↔
      ¬∀ c ∈ text.toList, Hex.IsDigit c := by
    rw [← digits]
    simp
  rw [strange, digits]
  exact ⟨parse_eq_invalidLength_iff text, parse_eq_invalidHex_iff text, exists_parse_iff text,
    parse_eq_ok_iff text digest, parse_text digest, pairAt_text digest⟩

-- The first character takes two bytes, so the length is right.
example : parse (String.ofList ('é' :: List.replicate 62 '0')) = .error .invalidHex := by
  rfl

end Digest

end GolombSet
