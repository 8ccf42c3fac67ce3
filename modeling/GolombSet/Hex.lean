import GolombSet.Bytes

set_option autoImplicit false

namespace GolombSet.Hex

-- In the place of a codec from a library. What is assumed of that one is what `pairAt_encode`
-- says of `encode`, and `decode_eq_some_iff` of `decode`.

def digit (value : Nat) : Char :=
  if value < 10 then Char.ofNat ('0'.toNat + value) else Char.ofNat ('a'.toNat + (value - 10))

def digit? (c : Char) : Option Nat :=
  if '0' ≤ c ∧ c ≤ '9' then some (c.toNat - '0'.toNat)
  else if 'a' ≤ c ∧ c ≤ 'f' then some (c.toNat - 'a'.toNat + 10)
  else if 'A' ≤ c ∧ c ≤ 'F' then some (c.toNat - 'A'.toNat + 10)
  else none

def encodeDigits : Bytes → List Char
  | [] => []
  | byte :: rest => digit (byte.toNat / 16) :: digit (byte.toNat % 16) :: encodeDigits rest

def decodeDigits : List Char → Option Bytes
  | [] => some []
  | [_] => none
  | high :: low :: rest =>
    match digit? high, digit? low, decodeDigits rest with
    | some h, some l, some bytes => some (UInt8.ofNat (16 * h + l) :: bytes)
    | _, _, _ => none

def encode (bytes : Bytes) : String :=
  String.ofList (encodeDigits bytes)

def decode (text : String) : Option Bytes :=
  decodeDigits text.toList

def parse {A E : Type} (size : Nat) (make : Bytes → Option A) (wrongLength : Nat → E)
    (wrongDigits : E) (text : String) : Except E A :=
  -- The length counts bytes, and it is looked at first.
  if text.utf8ByteSize ≠ 2 * size then .error (wrongLength text.utf8ByteSize)
  else
    match (decode text).bind make with
    | some value => .ok value
    | none => .error wrongDigits

theorem digit?_digit (value : Nat) (h : value < 16) : digit? (digit value) = some value := by
  revert value
  decide

theorem decodeDigits_encodeDigits (bytes : Bytes) :
    decodeDigits (encodeDigits bytes) = some bytes := by
  induction bytes with
  | nil => rfl
  | cons byte rest ih =>
    have byte_lt := byte.toNat_lt
    have high := digit?_digit (byte.toNat / 16) (by omega)
    have low := digit?_digit (byte.toNat % 16) (by omega)
    simp [encodeDigits, decodeDigits, high, low, ih, Nat.div_add_mod]

theorem decode_encode (bytes : Bytes) : decode (encode bytes) = some bytes := by
  simp [decode, encode, decodeDigits_encodeDigits]

end GolombSet.Hex
