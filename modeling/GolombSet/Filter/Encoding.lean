import GolombSet.Filter.Basic
import GolombSet.Rice

set_option autoImplicit false

namespace GolombSet

def gaps (last : UInt64) : List UInt64 → List UInt64
  | [] => []
  | value :: values => (value - last) :: gaps value values

def encodedLength (p : Nat) (values : List UInt64) : Nat :=
  (gaps 0 values).foldl (fun total gap => total + Rice.length p gap.toNat) 0

def encodeGaps (p : Nat) (values : List UInt64) : BitBuffer :=
  (gaps 0 values).foldl (fun buffer gap => buffer.appendRice p gap)
    (BitBuffer.withCapacity (encodedLength p values))

def Filter.ofSorted (count : UInt32) (parameter : Parameter) (values : List UInt64) : Filter where
  count := count
  parameter := parameter
  data := (encodeGaps parameter.toNat values).toBytes

theorem bits_encodeGaps (p : Nat) (values : List UInt64) :
    (encodeGaps p values).bits = (gaps 0 values).flatMap fun gap => Rice.code p gap.toNat := by
  have all (codes : List UInt64) (buffer : BitBuffer) :
      (codes.foldl (fun buffer gap => buffer.appendRice p gap) buffer).bits =
        buffer.bits ++ codes.flatMap fun gap => Rice.code p gap.toNat := by
    induction codes generalizing buffer with
    | nil => simp
    | cons gap codes ih => simp [ih]
  simp [encodeGaps, all]

end GolombSet
