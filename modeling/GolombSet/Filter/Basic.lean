import GolombSet.Bits.Cursor
import GolombSet.CompactSize

set_option autoImplicit false

namespace GolombSet

inductive FilterError where
  | parameterTooBig (p : UInt8)
  | endOfStream
  | corruptStream
  | tooManyEntries (count : Nat)
  | nonCanonicalCount
deriving DecidableEq

namespace FilterError

def message : FilterError → String
  | parameterTooBig p => s!"P is too big: {p} > 32"
  | endOfStream => "Unexpected end of filter data"
  | corruptStream => "Corrupt filter data"
  | tooManyEntries count =>
    s!"Too many entries: {count} distinct entries, at most 4294967295 allowed"
  | nonCanonicalCount => "Non-canonical encoding of the number of entries"

def ofStream : StreamError → FilterError
  | .endOfStream => endOfStream
  | .overflow => corruptStream

def ofCompactSize : CompactSizeError → FilterError
  | .truncated => endOfStream
  | .nonCanonical _ => nonCanonicalCount

end FilterError

structure Parameter where
  value : UInt8
  value_le : value ≤ 32
deriving DecidableEq

namespace Parameter

def standard : Parameter where
  value := 19
  value_le := by decide

def check (p : UInt8) : Except FilterError Parameter :=
  if value_le : p ≤ 32 then .ok ⟨p, value_le⟩ else .error (.parameterTooBig p)

def toNat (parameter : Parameter) : Nat :=
  parameter.value.toNat

def range (parameter : Parameter) (count : UInt32) : UInt64 :=
  count.toUInt64 <<< parameter.value.toUInt64

end Parameter

/-- A filter whose parameter has not been checked. -/
structure RawFilter where
  count : UInt32
  p : UInt8
  data : Bytes
deriving DecidableEq

namespace RawFilter

def isEmpty (filter : RawFilter) : Bool :=
  filter.count == 0

def range (filter : RawFilter) : UInt64 :=
  filter.count.toUInt64 <<< filter.p.toUInt64

end RawFilter

structure Filter where
  count : UInt32
  parameter : Parameter
  -- The codes of the gaps between the places.
  data : Bytes
deriving DecidableEq

namespace Filter

def ofParts (count : UInt32) (p : UInt8) (data : Bytes) : Except FilterError Filter :=
  (Parameter.check p).map fun parameter => ⟨count, parameter, data⟩

def raw (filter : Filter) : RawFilter :=
  ⟨filter.count, filter.parameter.value, filter.data⟩

def isEmpty (filter : Filter) : Bool :=
  filter.raw.isEmpty

def range (filter : Filter) : UInt64 :=
  filter.parameter.range filter.count

end Filter

theorem Parameter.toNat_le (parameter : Parameter) : parameter.toNat ≤ 32 :=
  UInt8.le_iff_toNat_le.mp parameter.value_le

theorem Parameter.toNat_le_64 (parameter : Parameter) : parameter.toNat ≤ 64 :=
  Nat.le_trans parameter.toNat_le (by decide)

theorem Parameter.toNat_range (parameter : Parameter) (count : UInt32) :
    (parameter.range count).toNat = count.toNat <<< parameter.toNat := by
  have small := parameter.toNat_le
  have few : count.toNat < 4294967296 := count.toNat_lt
  have fits : count.toNat <<< parameter.toNat < UInt64.size := by
    have scale : 2 ^ parameter.toNat ≤ 4294967296 :=
      Nat.pow_le_pow_right (Nat.zero_lt_succ 1) small
    rw [Nat.shiftLeft_eq]
    calc count.toNat * 2 ^ parameter.toNat
        ≤ count.toNat * 4294967296 := Nat.mul_le_mul_left _ scale
      _ < 4294967296 * 4294967296 := Nat.mul_lt_mul_of_pos_right few (by decide)
      _ = UInt64.size := by decide
  have shift : parameter.value.toNat % 64 = parameter.toNat := Nat.mod_eq_of_lt (by
    show parameter.toNat < 64
    omega)
  have value : (parameter.range count).toNat =
      count.toNat <<< (parameter.value.toNat % 64) % UInt64.size := by
    rw [range, UInt64.toNat_shiftLeft]
    rfl
  rw [value, shift, Nat.mod_eq_of_lt fits]

end GolombSet
