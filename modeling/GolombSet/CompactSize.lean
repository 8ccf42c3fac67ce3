import GolombSet.Bytes

set_option autoImplicit false

namespace GolombSet

inductive CompactSizeError where
  | truncated
  | nonCanonical (value : UInt64)
deriving DecidableEq

def CompactSizeError.message : CompactSizeError → String
  | .truncated => "Truncated compact size"
  | .nonCanonical value =>
    s!"Non-canonical compact size: {value} could be written in fewer bytes"

namespace CompactSize

def length (value : UInt64) : Nat :=
  if value ≤ 0xfc then 1
  else if value ≤ 0xffff then 3
  else if value ≤ 0xffffffff then 5
  else 9

def append (buffer : Bytes) (value : UInt64) : Bytes :=
  if value ≤ 0xfc then buffer.concat (UInt8.ofNat value.toNat)
  else if value ≤ 0xffff then buffer.concat 0xfd ++ Bytes.ofNatLE 2 value.toNat
  else if value ≤ 0xffffffff then buffer.concat 0xfe ++ Bytes.ofNatLE 4 value.toNat
  else buffer.concat 0xff ++ Bytes.ofNatLE 8 value.toNat

def encode (value : UInt64) : Bytes :=
  append [] value

/-- Of all numbers, `least` is the first that needs so many bytes. -/
def decodePayload (width : Nat) (least : UInt64) (rest : Bytes) :
    Except CompactSizeError (UInt64 × Nat) :=
  if rest.length < width then .error .truncated
  else
    let value : UInt64 :=
      (rest.take width).reverse.foldl (fun acc byte => acc <<< 8 ||| byte.toUInt64) 0
    if value < least then .error (.nonCanonical value) else .ok (value, 1 + width)

def decode : Bytes → Except CompactSizeError (UInt64 × Nat)
  | [] => .error .truncated
  | first :: rest =>
    if first = 0xfd then decodePayload 2 0xfd rest
    else if first = 0xfe then decodePayload 4 0x10000 rest
    else if first = 0xff then decodePayload 8 0x100000000 rest
    else .ok (first.toUInt64, 1)

end CompactSize

end GolombSet
