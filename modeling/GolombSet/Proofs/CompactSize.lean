import GolombSet.CompactSize
import GolombSet.Proofs.Bytes
import GolombSet.Proofs.Words

set_option autoImplicit false

namespace GolombSet.CompactSize

/-- How many bytes follow the marker in the code of `value`; none if there is no marker. -/
def payloadWidth (value : UInt64) : Nat :=
  if value < 0xfd then 0
  else if value < 0x10000 then 2
  else if value < 0x100000000 then 4
  else 8

def marker (width : Nat) : UInt8 :=
  if width = 2 then 0xfd else if width = 4 then 0xfe else 0xff

/-- How many bytes follow a byte that may be a marker. -/
def markedWidth (first : UInt8) : Nat :=
  if first = 0xfd then 2 else if first = 0xfe then 4 else if first = 0xff then 8 else 0

theorem payloadWidth_cases (value : UInt64) :
    (payloadWidth value = 0 ∧ value.toNat < 0xfd) ∨
      (payloadWidth value = 2 ∧ 0xfd ≤ value.toNat ∧ value.toNat < 256 ^ 2) ∨
      (payloadWidth value = 4 ∧ 256 ^ 2 ≤ value.toNat ∧ value.toNat < 256 ^ 4) ∨
      (payloadWidth value = 8 ∧ 256 ^ 4 ≤ value.toNat ∧ value.toNat < 256 ^ 8) := by
  have bound : value.toNat < 256 ^ 8 := value.toNat_lt
  simp only [payloadWidth, UInt64.lt_iff_toNat_lt, UInt64.reduceToNat]
  split
  · simp [*]
  · split
    · omega
    · split <;> omega

theorem markedWidth_cases (first : UInt8) :
    (markedWidth first = 0 ∧ first.toNat < 0xfd) ∨
      (markedWidth first = 2 ∧ first = marker 2) ∨
      (markedWidth first = 4 ∧ first = marker 4) ∨
      (markedWidth first = 8 ∧ first = marker 8) := by
  have bound := first.toNat_lt
  simp only [markedWidth, marker, ← UInt8.toNat_inj, UInt8.reduceToNat]
  split
  · simp [*]
  · split
    · simp [*]
    · split
      · simp [*]
      · omega

theorem markedWidth_le (first : UInt8) : markedWidth first ≤ 8 := by
  rcases markedWidth_cases first with ⟨width, -⟩ | ⟨width, -⟩ | ⟨width, -⟩ | ⟨width, -⟩
  all_goals omega

theorem markedWidth_eq_zero_iff (first : UInt8) : markedWidth first = 0 ↔ first.toNat < 0xfd := by
  rcases markedWidth_cases first with ⟨width, small⟩ | ⟨-, rfl⟩ | ⟨-, rfl⟩ | ⟨-, rfl⟩
  · simp [width, small]
  all_goals decide

theorem marker_markedWidth (first : UInt8) (marked : markedWidth first ≠ 0) :
    marker (markedWidth first) = first := by
  rcases markedWidth_cases first with ⟨width, -⟩ | ⟨-, rfl⟩ | ⟨-, rfl⟩ | ⟨-, rfl⟩
  · contradiction
  all_goals rfl

theorem payloadWidth_eq_zero_iff (value : UInt64) :
    payloadWidth value = 0 ↔ value.toNat < 0xfd := by
  have cases := payloadWidth_cases value
  omega

theorem markedWidth_marker (value : UInt64) (long : payloadWidth value ≠ 0) :
    markedWidth (marker (payloadWidth value)) = payloadWidth value := by
  rcases payloadWidth_cases value with ⟨width, -⟩ | ⟨width, -⟩ | ⟨width, -⟩ | ⟨width, -⟩
  · contradiction
  all_goals
    rw [width]
    rfl

theorem toNat_lt_of_long (value : UInt64) (long : payloadWidth value ≠ 0) :
    value.toNat < 256 ^ payloadWidth value := by
  rcases payloadWidth_cases value with ⟨width, -⟩ | ⟨width, -, fits⟩ | ⟨width, -, fits⟩ |
    ⟨width, -, fits⟩
  · contradiction
  all_goals rwa [width]

theorem payloadWidth_le (first : UInt8) (marked : markedWidth first ≠ 0) (value : UInt64)
    (fits : value.toNat < 256 ^ markedWidth first) : payloadWidth value ≤ markedWidth first := by
  have needed := payloadWidth_cases value
  rcases markedWidth_cases first with ⟨width, -⟩ | ⟨width, -⟩ | ⟨width, -⟩ | ⟨width, -⟩
  · contradiction
  all_goals
    rw [width] at fits ⊢
    omega

theorem toNat_payload (first : UInt8) (payload : Bytes)
    (size : payload.length = markedWidth first) :
    (UInt64.ofNat payload.toNatLE).toNat = payload.toNatLE := by
  have bound := payload.toNatLE_lt
  have fits : 256 ^ payload.length ≤ 256 ^ 8 :=
    Nat.pow_le_pow_right (by decide) (size ▸ markedWidth_le first)
  exact Nat.mod_eq_of_lt (Nat.lt_of_lt_of_le bound fits)

theorem length_eq (value : UInt64) : length value = 1 + payloadWidth value := by
  have needed := payloadWidth_cases value
  simp only [length, UInt64.le_iff_toNat_le, UInt64.reduceToNat]
  split
  · omega
  · split
    · omega
    · split <;> omega

theorem append_eq_of_plain {value : UInt64} (plain : payloadWidth value = 0) (buffer : Bytes) :
    append buffer value = buffer ++ [UInt8.ofNat value.toNat] := by
  have small := (payloadWidth_eq_zero_iff value).mp plain
  have first : value ≤ 0xfc := UInt64.le_iff_toNat_le.mpr (Nat.le_of_lt_succ small)
  rw [append, if_pos first, List.concat_eq_append]

theorem append_eq_of_payload {value : UInt64} (long : payloadWidth value ≠ 0) (buffer : Bytes) :
    append buffer value =
      buffer ++ marker (payloadWidth value) ::
        Bytes.ofNatLE (payloadWidth value) value.toNat := by
  simp only [append, UInt64.le_iff_toNat_le, UInt64.reduceToNat, List.concat_eq_append,
    List.append_assoc, List.singleton_append]
  rcases payloadWidth_cases value with ⟨width, -⟩ | ⟨width, least, most⟩ | ⟨width, least, most⟩ |
    ⟨width, least, -⟩
  · contradiction
  · rw [width, if_neg (by omega), if_pos (by omega)]
    rfl
  · rw [width, if_neg (by omega), if_neg (by omega), if_pos (by omega)]
    rfl
  · rw [width, if_neg (by omega), if_neg (by omega), if_neg (by omega)]
    rfl

theorem append_eq (buffer : Bytes) (value : UInt64) :
    append buffer value = buffer ++ encode value := by
  unfold encode
  by_cases plain : payloadWidth value = 0
  · rw [append_eq_of_plain plain, append_eq_of_plain plain, List.nil_append]
  · rw [append_eq_of_payload plain, append_eq_of_payload plain, List.nil_append]

theorem length_encode (value : UInt64) : (encode value).length = length value := by
  rw [encode, length_eq]
  by_cases plain : payloadWidth value = 0
  · rw [append_eq_of_plain plain, plain]
    rfl
  · rw [append_eq_of_payload plain, List.nil_append, List.length_cons, Bytes.length_ofNatLE,
      Nat.add_comm]

theorem foldl_reverse_eq (payload : Bytes) (size : payload.length ≤ 8) :
    payload.reverse.foldl (fun (acc : UInt64) byte => acc <<< 8 ||| byte.toUInt64) 0 =
      UInt64.ofNat payload.toNatLE := by
  rw [List.foldl_reverse]
  induction payload with
  | nil => rfl
  | cons byte payload ih =>
    have later : payload.length ≤ 7 := Nat.le_of_succ_le_succ size
    have fits : Bytes.toNatLE payload * 2 ^ 8 < 2 ^ 64 := by
      have bound := Bytes.toNatLE_lt payload
      have most : 256 ^ payload.length ≤ 256 ^ 7 := Nat.pow_le_pow_right (by decide) later
      omega
    have joined := Word.shiftLeft_or (by decide) fits byte.toNat_lt
    rw [UInt64.ofNat_uInt8ToNat] at joined
    rw [List.foldr_cons, ih (Nat.le_succ_of_le later), Bytes.toNatLE, Nat.add_comm, Nat.mul_comm]
    exact joined

theorem decodePayload_eq {width : Nat} {least : UInt64} (size : width ≤ 8)
    (shorter : ∀ value, value < least ↔ payloadWidth value < width) (rest : Bytes) :
    decodePayload width least rest =
      if rest.length < width then .error .truncated
      else if payloadWidth (UInt64.ofNat (Bytes.toNatLE (rest.take width))) < width then
        .error (.nonCanonical (UInt64.ofNat (Bytes.toNatLE (rest.take width))))
      else .ok (UInt64.ofNat (Bytes.toNatLE (rest.take width)), 1 + width) := by
  have taken : (rest.take width).length ≤ 8 := Nat.le_trans (List.length_take_le _ _) size
  simp only [decodePayload, foldl_reverse_eq _ taken, shorter]

theorem decode_of_marker {first : UInt8} (marked : markedWidth first ≠ 0) (rest : Bytes) :
    decode (first :: rest) =
      if rest.length < markedWidth first then .error .truncated
      else if payloadWidth (UInt64.ofNat (Bytes.toNatLE (rest.take (markedWidth first)))) <
          markedWidth first then
        .error (.nonCanonical (UInt64.ofNat (Bytes.toNatLE (rest.take (markedWidth first)))))
      else
        .ok (UInt64.ofNat (Bytes.toNatLE (rest.take (markedWidth first))),
          1 + markedWidth first) := by
  rcases markedWidth_cases first with ⟨width, -⟩ | ⟨width, rfl⟩ | ⟨width, rfl⟩ | ⟨width, rfl⟩
  · contradiction
  all_goals
    rw [width]
    refine decodePayload_eq (by decide) (fun value => ?_) rest
    have needed := payloadWidth_cases value
    simp only [UInt64.lt_iff_toNat_lt, UInt64.reduceToNat]
    omega

theorem decode_of_plain {first : UInt8} (plain : markedWidth first = 0) (rest : Bytes) :
    decode (first :: rest) = .ok (UInt64.ofNat first.toNat, 1) := by
  have small := (markedWidth_eq_zero_iff first).mp plain
  have other (marker : UInt8) (large : 0xfd ≤ marker.toNat) : first ≠ marker := by
    rintro rfl
    omega
  rw [decode, if_neg (other 0xfd (by decide)), if_neg (other 0xfe (by decide)),
    if_neg (other 0xff (by decide)), UInt64.ofNat_uInt8ToNat]

theorem decode_of_truncated {first : UInt8} {rest : Bytes}
    (short : rest.length < markedWidth first) : decode (first :: rest) = .error .truncated := by
  have marked : markedWidth first ≠ 0 := Nat.ne_of_gt (Nat.zero_lt_of_lt short)
  rw [decode_of_marker marked, if_pos short]

theorem decode_of_payload {first : UInt8} (marked : markedWidth first ≠ 0) (payload rest : Bytes)
    (size : payload.length = markedWidth first) :
    decode (first :: (payload ++ rest)) =
      if payloadWidth (UInt64.ofNat payload.toNatLE) < markedWidth first then
        .error (.nonCanonical (UInt64.ofNat payload.toNatLE))
      else .ok (UInt64.ofNat payload.toNatLE, 1 + markedWidth first) := by
  have taken : (payload ++ rest).take (markedWidth first) = payload := by
    rw [← size, List.take_left]
  have enough : ¬(payload ++ rest).length < markedWidth first := by
    rw [List.length_append]
    omega
  rw [decode_of_marker marked, if_neg enough, taken]

theorem encode_of_plain {value : UInt64} (plain : payloadWidth value = 0) :
    encode value = [UInt8.ofNat value.toNat] :=
  append_eq_of_plain plain []

theorem encode_of_long {value : UInt64} (long : payloadWidth value ≠ 0) :
    encode value =
      marker (payloadWidth value) :: Bytes.ofNatLE (payloadWidth value) value.toNat :=
  append_eq_of_payload long []

theorem encode_of_payload {first : UInt8} (marked : markedWidth first ≠ 0) (payload : Bytes)
    (size : payload.length = markedWidth first)
    (minimal : payloadWidth (UInt64.ofNat payload.toNatLE) = markedWidth first) :
    encode (UInt64.ofNat payload.toNatLE) = first :: payload := by
  rw [encode_of_long (minimal ▸ marked), minimal, toNat_payload first payload size,
    marker_markedWidth first marked, ← size, Bytes.ofNatLE_toNatLE]

theorem decode_encode_append (value : UInt64) (rest : Bytes) :
    decode (encode value ++ rest) = .ok (value, length value) := by
  by_cases plain : payloadWidth value = 0
  · have small := (payloadWidth_eq_zero_iff value).mp plain
    have byte : (UInt8.ofNat value.toNat).toNat = value.toNat := Nat.mod_eq_of_lt (by omega)
    have unmarked := (markedWidth_eq_zero_iff (UInt8.ofNat value.toNat)).mpr (byte.symm ▸ small)
    rw [encode_of_plain plain, List.singleton_append, decode_of_plain unmarked, byte,
      UInt64.ofNat_toNat, length_eq, plain]
  · have width := markedWidth_marker value plain
    let payload := Bytes.ofNatLE (payloadWidth value) value.toNat
    have size : payload.length = payloadWidth value := Bytes.length_ofNatLE _ _
    have whole : UInt64.ofNat payload.toNatLE = value := by
      rw [Bytes.toNatLE_ofNatLE, Nat.mod_eq_of_lt (toNat_lt_of_long value plain),
        UInt64.ofNat_toNat]
    rw [encode_of_long plain, List.cons_append, decode_of_payload (width.symm ▸ plain) payload rest
      (size.trans width.symm), whole, width, if_neg (Nat.lt_irrefl _), length_eq]

theorem eq_encode_append_of_decode {bytes : Bytes} {value : UInt64} {used : Nat}
    (read : decode bytes = .ok (value, used)) :
    used = length value ∧ bytes = encode value ++ bytes.drop used := by
  cases bytes with
  | nil => contradiction
  | cons first rest =>
    by_cases plain : markedWidth first = 0
    · rw [decode_of_plain plain] at read
      cases read
      have small := (markedWidth_eq_zero_iff first).mp plain
      have same : (UInt64.ofNat first.toNat).toNat = first.toNat := Nat.mod_eq_of_lt (by omega)
      have single := (payloadWidth_eq_zero_iff (UInt64.ofNat first.toNat)).mpr (same.symm ▸ small)
      rw [encode_of_plain single, same, UInt8.ofNat_toNat, length_eq, single]
      exact ⟨rfl, rfl⟩
    · by_cases short : rest.length < markedWidth first
      · rw [decode_of_truncated short] at read
        contradiction
      · let payload : Bytes := rest.take (markedWidth first)
        have size : payload.length = markedWidth first :=
          List.length_take_of_le (Nat.le_of_not_lt short)
        have split : rest = payload ++ rest.drop (markedWidth first) :=
          (List.take_append_drop _ _).symm
        rw [split, decode_of_payload plain payload _ size] at read
        by_cases shorter : payloadWidth (UInt64.ofNat payload.toNatLE) < markedWidth first
        · rw [if_pos shorter] at read
          contradiction
        · rw [if_neg shorter] at read
          cases read
          -- The payload fits in the announced width, so its number needs just this width.
          have most := payloadWidth_le first plain (UInt64.ofNat payload.toNatLE) (by
            rw [toNat_payload first payload size, ← size]
            exact payload.toNatLE_lt)
          have minimal := Nat.le_antisymm most (Nat.le_of_not_lt shorter)
          refine ⟨by rw [length_eq, minimal], ?_⟩
          rw [encode_of_payload plain payload size minimal, Nat.add_comm, List.drop_succ_cons,
            List.cons_append, ← split]

end GolombSet.CompactSize
