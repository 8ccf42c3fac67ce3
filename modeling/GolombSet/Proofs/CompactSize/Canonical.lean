import GolombSet.Proofs.CompactSize

set_option autoImplicit false

namespace GolombSet.CompactSize

def markers : List (UInt8 × Nat) :=
  [(0xfd, 2), (0xfe, 4), (0xff, 8)]

/-- The forms that hold a number, whether or not a shorter one does. -/
inductive Holds (value : UInt64) : Bytes → Prop
  | plain (byte : UInt8) (unmarked : byte < 0xfd) (same : byte.toNat = value.toNat) :
    Holds value [byte]
  | marked (first : UInt8) (payload : Bytes)
    (sized : (first, payload.length) ∈ markers)
    (same : payload.toNatLE = value.toNat) : Holds value (first :: payload)

def Overlong (value : UInt64) (bytes : Bytes) : Prop :=
  ∃ code, Holds value code ∧ code <+: bytes ∧ length value < code.length

def CutShort (bytes : Bytes) : Prop :=
  ∃ value, bytes <+: encode value ∧ bytes ≠ encode value

theorem mem_markers_iff (first : UInt8) (width : Nat) :
    (first, width) ∈ markers ↔ markedWidth first ≠ 0 ∧ width = markedWidth first := by
  constructor
  · intro listed
    simp only [markers, List.mem_cons, Prod.mk.injEq, List.not_mem_nil, or_false] at listed
    rcases listed with ⟨rfl, rfl⟩ | ⟨rfl, rfl⟩ | ⟨rfl, rfl⟩
    all_goals decide
  · rintro ⟨marked, rfl⟩
    rcases markedWidth_cases first with ⟨width, -⟩ | ⟨width, rfl⟩ | ⟨width, rfl⟩ | ⟨width, rfl⟩
    · contradiction
    all_goals
      rw [width]
      decide

theorem Holds.eq_encode_or_longer {value : UInt64} {code : Bytes} (holds : Holds value code) :
    code = encode value ∨ length value < code.length := by
  cases holds with
  | plain byte unmarked same =>
    have small := UInt8.lt_iff_toNat_lt.mp unmarked
    have none := (payloadWidth_eq_zero_iff value).mpr (same ▸ small)
    rw [encode_of_plain none, ← same, UInt8.ofNat_toNat]
    exact .inl rfl
  | marked first payload sized same =>
    obtain ⟨marked, size⟩ := (mem_markers_iff first payload.length).mp sized
    have whole : UInt64.ofNat payload.toNatLE = value := by rw [same, UInt64.ofNat_toNat]
    have fits := payload.toNatLE_lt
    rw [same, size] at fits
    -- The number fits in the payload, so its own width is this one or a smaller one.
    rcases Nat.eq_or_lt_of_le (payloadWidth_le first marked value fits) with minimal | longer
    · have code := encode_of_payload marked payload size (whole ▸ minimal)
      rw [← code, whole]
      exact .inl rfl
    · rw [length_eq, List.length_cons, size, Nat.add_comm]
      exact .inr (Nat.succ_lt_succ longer)

theorem Holds.eq_encode {value : UInt64} {code : Bytes} (holds : Holds value code)
    (shortest : ¬length value < code.length) : code = encode value :=
  holds.eq_encode_or_longer.resolve_right shortest

theorem holds_encode (value : UInt64) : Holds value (encode value) := by
  by_cases plain : payloadWidth value = 0
  · have small := (payloadWidth_eq_zero_iff value).mp plain
    have byte : (UInt8.ofNat value.toNat).toNat = value.toNat := Nat.mod_eq_of_lt (by omega)
    have unmarked : UInt8.ofNat value.toNat < 0xfd := by
      rw [UInt8.lt_iff_toNat_lt, byte]
      exact small
    rw [encode_of_plain plain]
    exact .plain _ unmarked byte
  · have width := markedWidth_marker value plain
    rw [encode_of_long plain]
    refine .marked _ _ ((mem_markers_iff _ _).mpr ⟨?_, ?_⟩) ?_
    · rwa [width]
    · rw [Bytes.length_ofNatLE, width]
    · rw [Bytes.toNatLE_ofNatLE, Nat.mod_eq_of_lt (toNat_lt_of_long value plain)]

theorem decode_of_holds {value : UInt64} {code : Bytes} (holds : Holds value code)
    (rest : Bytes) :
    decode (code ++ rest) =
      if length value < code.length then .error (.nonCanonical value)
      else .ok (value, length value) := by
  by_cases longer : length value < code.length
  · rw [if_pos longer]
    cases holds with
    | plain byte unmarked same =>
      rw [length_eq, List.length_singleton] at longer
      omega
    | marked first payload sized same =>
      obtain ⟨marked, size⟩ := (mem_markers_iff first payload.length).mp sized
      have whole : UInt64.ofNat payload.toNatLE = value := by rw [same, UInt64.ofNat_toNat]
      have shorter : payloadWidth value < markedWidth first := by
        rw [length_eq, List.length_cons, size] at longer
        omega
      rw [List.cons_append, decode_of_payload marked payload rest size, whole, if_pos shorter]
  · rw [if_neg longer, holds.eq_encode longer, decode_encode_append]

theorem payloadWidth_of_last {first : UInt8} {front : Bytes}
    (size : (front ++ [0xff]).length = markedWidth first) :
    payloadWidth (UInt64.ofNat (front ++ [0xff] : Bytes).toNatLE) = markedWidth first := by
  have value := toNat_payload first _ size
  have fits := (front ++ [0xff] : Bytes).toNatLE_lt
  have large : 256 ^ front.length * 255 ≤ (front ++ [0xff] : Bytes).toNatLE := by
    rw [Bytes.toNatLE_append]
    exact Nat.le_add_left _ _
  have width : front.length = markedWidth first - 1 := by
    rw [← size, List.length_append, List.length_singleton, Nat.add_sub_cancel]
  rw [size] at fits
  rw [width] at large
  rw [← value] at fits large
  have needed := payloadWidth_cases (UInt64.ofNat (front ++ [0xff] : Bytes).toNatLE)
  rcases markedWidth_cases first with ⟨marked, -⟩ | ⟨marked, -⟩ | ⟨marked, -⟩ | ⟨marked, -⟩
  · rw [marked, List.length_append] at size
    contradiction
  all_goals
    rw [marked] at fits large ⊢
    omega

theorem cutShort_of_short {first : UInt8} {rest : Bytes} (short : rest.length < markedWidth first) :
    CutShort (first :: rest) := by
  -- A payload with all bits set in its last byte belongs to a number with no shorter form.
  let missing : Bytes := List.replicate (markedWidth first - 1 - rest.length) 0 ++ [0xff]
  have marked : markedWidth first ≠ 0 := Nat.ne_of_gt (Nat.zero_lt_of_lt short)
  have size : (rest ++ missing).length = markedWidth first := by
    simp only [missing, List.length_append, List.length_replicate, List.length_singleton]
    omega
  have minimal : payloadWidth (UInt64.ofNat (rest ++ missing : Bytes).toNatLE) =
      markedWidth first := by
    rw [← List.append_assoc] at size ⊢
    exact payloadWidth_of_last size
  have code := encode_of_payload marked (rest ++ missing) size minimal
  refine ⟨_, ⟨missing, code.symm⟩, fun same => ?_⟩
  rw [code, List.cons_inj_right, List.self_eq_append_right] at same
  simp [missing] at same

theorem holds_or_cutShort (bytes : Bytes) :
    (∃ value code rest, Holds value code ∧ bytes = code ++ rest) ∨
      (CutShort bytes ∧ decode bytes = .error .truncated) := by
  cases bytes with
  | nil => exact .inr ⟨⟨0, List.nil_prefix, by decide⟩, rfl⟩
  | cons first rest =>
    by_cases plain : markedWidth first = 0
    · have small := (markedWidth_eq_zero_iff first).mp plain
      have same : first.toNat = (UInt64.ofNat first.toNat).toNat :=
        (Nat.mod_eq_of_lt (by omega)).symm
      exact .inl ⟨_, [first], rest, .plain first (UInt8.lt_iff_toNat_lt.mpr small) same, rfl⟩
    · by_cases short : rest.length < markedWidth first
      · exact .inr ⟨cutShort_of_short short, decode_of_truncated short⟩
      · let payload : Bytes := rest.take (markedWidth first)
        have size : payload.length = markedWidth first :=
          List.length_take_of_le (Nat.le_of_not_lt short)
        have holds : Holds (UInt64.ofNat payload.toNatLE) (first :: payload) :=
          .marked first payload ((mem_markers_iff _ _).mpr ⟨plain, size⟩)
            (toNat_payload first payload size).symm
        refine .inl ⟨_, first :: payload, rest.drop (markedWidth first), holds, ?_⟩
        rw [List.cons_append, List.take_append_drop]

theorem CutShort.not_holds {bytes : Bytes} (cut : CutShort bytes) {value : UInt64}
    {code rest : Bytes} (holds : Holds value code) : bytes ≠ code ++ rest := by
  rintro rfl
  obtain ⟨whole, ⟨more, split⟩, proper⟩ := cut
  have read := decode_encode_append whole []
  rw [List.append_nil, ← split, List.append_assoc, decode_of_holds holds] at read
  by_cases longer : length value < code.length
  · rw [if_pos longer] at read
    contradiction
  · rw [if_neg longer] at read
    cases read
    obtain rfl := holds.eq_encode longer
    rw [List.append_assoc, List.append_right_eq_self, List.append_eq_nil_iff] at split
    obtain ⟨rfl, -⟩ := split
    exact proper (List.append_nil _)

theorem decode_eq_ok_iff (bytes : Bytes) (value : UInt64) (used : Nat) :
    decode bytes = .ok (value, used) ↔ encode value <+: bytes ∧ used = length value := by
  constructor
  · intro read
    obtain ⟨size, split⟩ := eq_encode_append_of_decode read
    exact ⟨⟨_, split.symm⟩, size⟩
  · rintro ⟨⟨rest, rfl⟩, rfl⟩
    exact decode_encode_append value rest

theorem decode_eq_truncated_iff (bytes : Bytes) :
    decode bytes = .error .truncated ↔ CutShort bytes := by
  rcases holds_or_cutShort bytes with ⟨value, code, rest, holds, rfl⟩ | ⟨cut, read⟩
  · have whole : ¬CutShort (code ++ rest) := fun cut => cut.not_holds holds rfl
    rw [decode_of_holds holds]
    by_cases longer : length value < code.length <;> simp [longer, whole]
  · simp [cut, read]

theorem decode_eq_nonCanonical_iff (bytes : Bytes) (value : UInt64) :
    decode bytes = .error (.nonCanonical value) ↔ Overlong value bytes := by
  constructor
  · intro read
    rcases holds_or_cutShort bytes with ⟨held, code, rest, holds, rfl⟩ | ⟨-, short⟩
    · rw [decode_of_holds holds] at read
      by_cases longer : length held < code.length
      · rw [if_pos longer] at read
        cases read
        exact ⟨code, holds, List.prefix_append _ _, longer⟩
      · rw [if_neg longer] at read
        contradiction
    · rw [short] at read
      cases read
  · rintro ⟨code, holds, ⟨rest, rfl⟩, longer⟩
    rw [decode_of_holds holds, if_pos longer]

theorem encode_prefix_inj {value other : UInt64} (start : encode value <+: encode other) :
    value = other := by
  have read := (decode_eq_ok_iff (encode other) value (length value)).mpr ⟨start, rfl⟩
  have whole := decode_encode_append other []
  rw [List.append_nil, read] at whole
  cases whole
  rfl

theorem canonical_prefix_code (bytes : Bytes) (value : UInt64) :
    (∀ buffer, append buffer value = buffer ++ encode value) ∧
      (encode value).length = length value ∧
      Holds value (encode value) ∧
      (∀ code, Holds value code → code ≠ encode value → length value < code.length) ∧
      (∀ other, encode value <+: encode other → value = other) ∧
      (∀ used, decode bytes = .ok (value, used) ↔
        encode value <+: bytes ∧ used = length value) ∧
      (decode bytes = .error .truncated ↔ CutShort bytes) ∧
      (decode bytes = .error (.nonCanonical value) ↔ Overlong value bytes) ∧
      ((∃ held, encode held <+: bytes) ∨ CutShort bytes ∨ ∃ held, Overlong held bytes) := by
  refine ⟨fun buffer => append_eq buffer value, length_encode value, holds_encode value, ?_,
    fun _ => encode_prefix_inj, decode_eq_ok_iff bytes value, decode_eq_truncated_iff bytes,
    decode_eq_nonCanonical_iff bytes value, ?_⟩
  · intro code holds other
    exact holds.eq_encode_or_longer.resolve_left other
  · rcases holds_or_cutShort bytes with ⟨held, code, rest, holds, rfl⟩ | ⟨cut, -⟩
    · by_cases longer : length held < code.length
      · exact .inr (.inr ⟨held, code, holds, List.prefix_append _ _, longer⟩)
      · obtain rfl := holds.eq_encode longer
        exact .inl ⟨held, List.prefix_append _ _⟩
    · exact .inr (.inl cut)

-- The largest number with a code of one byte, in the next longer form.
example : decode [0xfd, 0xfc, 0x00] = .error (.nonCanonical 0xfc) := rfl

end GolombSet.CompactSize
