import GolombSet.Filter.Basic

set_option autoImplicit false

namespace GolombSet.Filter

def encodeCount (count : UInt32) : Bytes :=
  CompactSize.encode count.toUInt64

def decodeCount (bytes : Bytes) : Except FilterError (UInt32 × Bytes) :=
  match CompactSize.decode bytes with
  | .error reason => .error (.ofCompactSize reason)
  | .ok (count, used) =>
    if count.toNat < UInt32.size then .ok (count.toUInt32, bytes.drop used)
    else .error (.tooManyEntries count.toNat)

def toCounted (filter : Filter) : Bytes :=
  encodeCount filter.count ++ filter.data

def ofCounted (p : UInt8) (bytes : Bytes) : Except FilterError Filter := do
  -- The parameter is checked before the bytes are looked at.
  let parameter ← Parameter.check p
  let (count, data) ← decodeCount bytes
  return ⟨count, parameter, data⟩

def toFull (filter : Filter) : Bytes :=
  encodeCount filter.count ++ filter.parameter.value :: filter.data

def ofFull (bytes : Bytes) : Except FilterError Filter := do
  match ← decodeCount bytes with
  | (_, []) => .error .endOfStream
  | (count, p :: data) => ofParts count p data

end GolombSet.Filter
