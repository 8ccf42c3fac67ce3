import GolombSet.Key

set_option autoImplicit false

namespace GolombSet.Hex

def IsDigit (c : Char) : Prop :=
  ('0' ≤ c ∧ c ≤ '9') ∨ ('a' ≤ c ∧ c ≤ 'f') ∨ ('A' ≤ c ∧ c ≤ 'F')

instance decidableIsDigit (c : Char) : Decidable (IsDigit c) :=
  inferInstanceAs (Decidable (_ ∨ _))

theorem isSome_digit?_iff (c : Char) : (digit? c).isSome ↔ IsDigit c := by
  unfold digit? IsDigit
  split
  · simp [*]
  · split
    · simp [*]
    · split <;> simp [*]

theorem exists_decodeDigits (size : Nat) (digits : List Char) (length : digits.length = 2 * size)
    (all : ∀ c ∈ digits, IsDigit c) :
    ∃ bytes, decodeDigits digits = some bytes ∧ bytes.length = size := by
  induction size generalizing digits with
  | zero =>
    obtain rfl := List.length_eq_zero_iff.mp length
    exact ⟨[], rfl, rfl⟩
  | succ size ih =>
    match digits, length with
    | high :: low :: rest, length =>
      simp only [List.length_cons, Nat.mul_add] at length
      simp only [List.mem_cons, forall_eq_or_imp, ← isSome_digit?_iff, Option.isSome_iff_exists]
        at all
      obtain ⟨⟨h, isHigh⟩, ⟨l, isLow⟩, later⟩ := all
      obtain ⟨bytes, read, count⟩ := ih rest (by omega) fun c member =>
        (isSome_digit?_iff c).mp (Option.isSome_iff_exists.mpr (later c member))
      exact ⟨UInt8.ofNat (16 * h + l) :: bytes, by simp [decodeDigits, isHigh, isLow, read],
        by simp [count]⟩

theorem utf8Size_of_isDigit {c : Char} (digit : IsDigit c) : c.utf8Size = 1 := by
  rw [Char.utf8Size_eq_one_iff]
  rcases digit with ⟨-, below⟩ | ⟨-, below⟩ | ⟨-, below⟩
  all_goals exact UInt32.le_trans below (by decide)

theorem utf8ByteSize_ofList (digits : List Char) (all : ∀ c ∈ digits, IsDigit c) :
    (String.ofList digits).utf8ByteSize = digits.length := by
  induction digits with
  | nil => rfl
  | cons c digits ih =>
    rw [String.ofList_cons, String.utf8ByteSize_append, String.utf8ByteSize_singleton,
      utf8Size_of_isDigit (all c (List.mem_cons_self ..)),
      ih fun c member => all c (List.mem_cons_of_mem _ member), List.length_cons, Nat.add_comm]

theorem exists_decode (size : Nat) (text : String) (length : text.length = 2 * size)
    (all : ∀ c ∈ text.toList, IsDigit c) :
    text.utf8ByteSize = 2 * size ∧ ∃ bytes, decode text = some bytes ∧ bytes.length = size := by
  rw [← String.length_toList] at length
  refine ⟨?_, exists_decodeDigits size text.toList length all⟩
  rw [← length, ← utf8ByteSize_ofList text.toList all, String.ofList_toList]

theorem lt_128_of_isDigit {c : Char} (digit : IsDigit c) : c.toNat < 128 := by
  have narrow := Char.utf8Size_eq_one_iff.mp (utf8Size_of_isDigit digit)
  exact Nat.lt_succ_of_le (UInt32.le_iff_toNat_le.mp narrow)

theorem toLower_of_128_le {c : Char} (large : 128 ≤ c.toNat) : c.toLower = c := by
  have above : ¬c.val ≤ 'Z'.val := by
    rw [UInt32.le_iff_toNat_le]
    exact fun below => absurd (Nat.le_trans large below) (by decide)
  exact dif_neg fun upper => above upper.2

theorem digit?_eq_some_iff (c : Char) (value : Nat) :
    digit? c = some value ↔ value < 16 ∧ c.toLower = digit value := by
  -- A table for the characters of one byte; none of the others is a digit or gets lowered to one.
  by_cases small : c.toNat < 128
  · have table : ∀ code < 128, (∀ value ∈ digit? (Char.ofNat code), value < 16) ∧
        ∀ value < 16,
          digit? (Char.ofNat code) = some value ↔ (Char.ofNat code).toLower = digit value := by
      decide +kernel
    have row := table c.toNat small
    rw [Char.ofNat_toNat] at row
    constructor
    · intro read
      have below := row.1 value read
      exact ⟨below, (row.2 value below).mp read⟩
    · rintro ⟨below, lower⟩
      exact (row.2 value below).mpr lower
  · constructor
    · intro read
      have isDigit := (isSome_digit?_iff c).mp (Option.isSome_of_eq_some read)
      exact absurd (lt_128_of_isDigit isDigit) small
    · rintro ⟨below, lower⟩
      have table : ∀ value < 16, (digit value).toNat < 128 := by decide
      rw [toLower_of_128_le (Nat.le_of_not_lt small)] at lower
      exact absurd (lower ▸ table value below) small

theorem decodeDigits_cons_cons_eq_some_iff (high low : Char) (digits : List Char) (byte : UInt8)
    (bytes : Bytes) :
    decodeDigits (high :: low :: digits) = some (byte :: bytes) ↔
      digit? high = some (byte.toNat / 16) ∧ digit? low = some (byte.toNat % 16) ∧
        decodeDigits digits = some bytes := by
  have byte_lt := byte.toNat_lt
  constructor
  · intro read
    simp only [decodeDigits] at read
    split at read
    · next h l rest isHigh isLow later =>
      obtain ⟨same, rfl⟩ := List.cons.inj (Option.some.inj read)
      have highBound := ((digit?_eq_some_iff high h).mp isHigh).1
      have lowBound := ((digit?_eq_some_iff low l).mp isLow).1
      have value : byte.toNat = 16 * h + l := by
        rw [← same]
        exact UInt8.toNat_ofNat_of_lt' (by simp [UInt8.size]; omega)
      refine ⟨?_, ?_, later⟩
      · rw [isHigh, value]
        exact congrArg some (by omega)
      · rw [isLow, value]
        exact congrArg some (by omega)
    · contradiction
  · rintro ⟨isHigh, isLow, later⟩
    simp [decodeDigits, isHigh, isLow, later, Nat.div_add_mod]

theorem decodeDigits_eq_some_iff (digits : List Char) (bytes : Bytes) :
    decodeDigits digits = some bytes ↔ digits.map Char.toLower = encodeDigits bytes := by
  induction bytes generalizing digits with
  | nil =>
    match digits with
    | [] => simp [decodeDigits, encodeDigits]
    | [_] => simp [decodeDigits, encodeDigits]
    | _ :: _ :: _ =>
      simp only [decodeDigits]
      split <;> simp [encodeDigits]
  | cons byte bytes ih =>
    have byte_lt := byte.toNat_lt
    have high_lt : byte.toNat / 16 < 16 := by omega
    have low_lt : byte.toNat % 16 < 16 := by omega
    match digits with
    | [] => simp [decodeDigits, encodeDigits]
    | [_] => simp [decodeDigits, encodeDigits]
    | high :: low :: digits =>
      rw [decodeDigits_cons_cons_eq_some_iff, ih, digit?_eq_some_iff, digit?_eq_some_iff]
      simp [encodeDigits, high_lt, low_lt]

theorem decode_eq_some_iff (text : String) (bytes : Bytes) :
    decode text = some bytes ↔ text.toLower = encode bytes := by
  have lower : text.toLower.toList = text.toList.map Char.toLower := String.toList_map ..
  rw [decode, decodeDigits_eq_some_iff, ← String.toList_inj, lower, encode, String.toList_ofList]

theorem isDigit_of_decodeDigits {digits : List Char} {bytes : Bytes}
    (read : decodeDigits digits = some bytes) : ∀ c ∈ digits, IsDigit c := by
  fun_induction decodeDigits digits generalizing bytes with
  | case1 => simp
  | case2 => contradiction
  | case3 high low rest h l later all isLow isHigh ih =>
    have highDigit := (isSome_digit?_iff high).mp (Option.isSome_of_eq_some isHigh)
    have lowDigit := (isSome_digit?_iff low).mp (Option.isSome_of_eq_some isLow)
    exact List.forall_mem_cons.mpr ⟨highDigit, List.forall_mem_cons.mpr ⟨lowDigit, ih all⟩⟩
  | case4 => contradiction

theorem length_encodeDigits (bytes : Bytes) : (encodeDigits bytes).length = 2 * bytes.length := by
  induction bytes with
  | nil => rfl
  | cons byte bytes ih => rw [encodeDigits, List.length_cons, List.length_cons, ih]; rfl

theorem utf8ByteSize_of_decode {text : String} {bytes : Bytes} (read : decode text = some bytes) :
    text.utf8ByteSize = 2 * bytes.length := by
  have size := utf8ByteSize_ofList text.toList (isDigit_of_decodeDigits read)
  have lower := (decodeDigits_eq_some_iff text.toList bytes).mp read
  rw [String.ofList_toList] at size
  rw [size, ← length_encodeDigits, ← lower, List.length_map]

theorem parse_eq_ok_iff {A E : Type} {size : Nat} {make : Bytes → Option A} {bytesOf : A → Bytes}
    (made : ∀ bytes value, make bytes = some value ↔ bytesOf value = bytes)
    (length_bytesOf : ∀ value, (bytesOf value).length = size) (wrongLength : Nat → E)
    (wrongDigits : E) (text : String) (value : A) :
    parse size make wrongLength wrongDigits text = .ok value ↔
      text.toLower = encode (bytesOf value) := by
  rw [← decode_eq_some_iff]
  constructor
  · intro parsed
    unfold parse at parsed
    split at parsed
    · contradiction
    · split at parsed
      · next found =>
        cases parsed
        obtain ⟨bytes, read, sized⟩ := Option.bind_eq_some_iff.mp found
        rw [(made bytes value).mp sized]
        exact read
      · contradiction
  · intro read
    have length := utf8ByteSize_of_decode read
    rw [length_bytesOf] at length
    have whole := (made (bytesOf value) value).mpr rfl
    simp [parse, length, read, whole]

structure PairAt (text : String) (position : Nat) (byte : UInt8) : Prop where
  high : text.toList[position]?.bind digit? = some (byte.toNat / 16)
  low : text.toList[position + 1]?.bind digit? = some (byte.toNat % 16)

theorem getElem?_encodeDigits (bytes : Bytes) (i : Nat) :
    (encodeDigits bytes)[2 * i]? = bytes[i]?.map (fun byte => digit (byte.toNat / 16)) ∧
      (encodeDigits bytes)[2 * i + 1]? = bytes[i]?.map (fun byte => digit (byte.toNat % 16)) := by
  induction bytes generalizing i with
  | nil => exact ⟨rfl, rfl⟩
  | cons byte bytes ih =>
    cases i with
    | zero => exact ⟨rfl, rfl⟩
    | succ i => exact ih i

theorem pairAt_encode {bytes : Bytes} {i : Nat} {byte : UInt8} (found : bytes[i]? = some byte) :
    PairAt (encode bytes) (2 * i) byte := by
  obtain ⟨high, low⟩ := getElem?_encodeDigits bytes i
  have byte_lt := byte.toNat_lt
  rw [found, Option.map_some] at high low
  constructor
  · rw [encode, String.toList_ofList, high]
    exact digit?_digit _ (by omega)
  · rw [encode, String.toList_ofList, low]
    exact digit?_digit _ (by omega)

theorem isDigit_ofUInt8_iff (c : Char) :
    (∀ byte ∈ String.utf8EncodeChar c, IsDigit (Char.ofUInt8 byte)) ↔ IsDigit c := by
  by_cases single : c.utf8Size = 1
  · have narrow := UInt32.le_iff_toNat_le.mp (Char.utf8Size_eq_one_iff.mp single)
    have same : Char.ofUInt8 c.val.toUInt8 = c := by
      apply Char.ext
      apply UInt32.toNat_inj.mp
      exact Nat.mod_eq_of_lt (Nat.lt_of_le_of_lt narrow (by decide))
    rw [String.utf8EncodeChar_eq_singleton single, List.forall_mem_singleton, same]
  · have wide : ¬c.val.toNat ≤ 127 := by
      rw [Char.utf8Size_eq_one_iff, UInt32.le_iff_toNat_le] at single
      exact single
    -- The last of several bytes is at least 128, so it is no digit.
    have last : UInt8.ofNat (c.val.toNat % 64 + 128) ∈ String.utf8EncodeChar c := by
      unfold String.utf8EncodeChar
      dsimp only
      rw [if_neg wide]
      split
      · simp
      · split <;> simp
    constructor
    · intro all
      have small : (c.val.toNat % 64 + 128) % 256 < 128 := lt_128_of_isDigit (all _ last)
      omega
    · intro isDigit
      exact absurd (utf8Size_of_isDigit isDigit) single

theorem forall_isDigit_iff (text : String) :
    (∀ byte ∈ text.toUTF8.data.toList, IsDigit (Char.ofUInt8 byte)) ↔
      ∀ c ∈ text.toList, IsDigit c := by
  have bytes : text.toUTF8.data.toList = text.toList.flatMap String.utf8EncodeChar := by
    rw [← String.ofList_toList (s := text), String.toUTF8_eq_toByteArray, String.toByteArray_ofList,
      List.utf8Encode, List.toList_data_toByteArray, String.toList_ofList]
  rw [bytes]
  constructor
  · intro all c member
    exact (isDigit_ofUInt8_iff c).mp fun byte inside =>
      all byte (List.mem_flatMap.mpr ⟨c, member, inside⟩)
  · intro all byte member
    obtain ⟨c, member, inside⟩ := List.mem_flatMap.mp member
    exact (isDigit_ofUInt8_iff c).mpr (all c member) byte inside

end GolombSet.Hex
