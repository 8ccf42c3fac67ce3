set_option autoImplicit false

namespace GolombSet

abbrev Bytes := List UInt8

namespace Bytes

def toNatLE : Bytes → Nat
  | [] => 0
  | byte :: rest => byte.toNat + 256 * toNatLE rest

def ofNatLE : Nat → Nat → Bytes
  | 0, _ => []
  | width + 1, value => UInt8.ofNat value :: ofNatLE width (value / 256)

def toNatBE (bytes : Bytes) : Nat :=
  toNatLE bytes.reverse

def ofNatBE (width value : Nat) : Bytes :=
  (ofNatLE width value).reverse

def takeBlocks (size : Nat) : Nat → Bytes → List Bytes
  | 0, _ => []
  | count + 1, bytes => bytes.take size :: takeBlocks size count (bytes.drop size)

def blocks (size : Nat) (bytes : Bytes) : List Bytes :=
  takeBlocks size (bytes.length / size) bytes

def leftover (size : Nat) (bytes : Bytes) : Bytes :=
  bytes.drop (size * (bytes.length / size))

def sized? {A : Type} (size : Nat) (make : (bytes : Bytes) → bytes.length = size → A)
    (bytes : Bytes) : Option A :=
  if length_bytes : bytes.length = size then some (make bytes length_bytes) else none

theorem length_ofNatLE (width value : Nat) : (ofNatLE width value).length = width := by
  induction width generalizing value with
  | zero => rfl
  | succ width ih => simp [ofNatLE, ih]

theorem ofNatLE_toNatLE (bytes : Bytes) : ofNatLE bytes.length (toNatLE bytes) = bytes := by
  induction bytes with
  | nil => rfl
  | cons byte rest ih =>
    have byte_lt := byte.toNat_lt
    have high : (byte.toNat + 256 * toNatLE rest) / 256 = toNatLE rest := by omega
    have low : UInt8.ofNat (byte.toNat + 256 * toNatLE rest) = byte := by
      apply UInt8.toNat_inj.mp
      simp
    simp [ofNatLE, toNatLE, high, low, ih]

end Bytes

end GolombSet
