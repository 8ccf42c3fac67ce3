import GolombSet.Bits.Buffer
import GolombSet.Bits.Cursor

set_option autoImplicit false

namespace GolombSet

namespace Rice

def code (p value : Nat) : Bits :=
  List.replicate (value >>> p) true ++ false :: Bits.ofNat p value

def length (p value : Nat) : Nat :=
  value >>> p + 1 + p

theorem length_code (p value : Nat) : (code p value).length = length p value := by
  simp [code, length]
  omega

end Rice

def BitBuffer.appendRice (buffer : BitBuffer) (p : Nat) (value : UInt64) : BitBuffer :=
  (buffer.appendUnary (value.toNat >>> p)).appendField value.toNat p

@[simp] theorem BitBuffer.bits_appendRice (buffer : BitBuffer) (p : Nat) (value : UInt64) :
    (buffer.appendRice p value).bits = buffer.bits ++ Rice.code p value.toNat := by
  simp [appendRice, Rice.code]

inductive Rice.Next where
  | done (answer : Except StreamError UInt64)
  | remainder (join : Nat → UInt64)

def Rice.next (p ones : Nat) : Next :=
  -- No byte string in memory has a run of ones that takes more than a word to count.
  if UInt64.size ≤ ones then .done (.error .overflow)
  else
    let quotient := UInt64.ofNat ones
    if p = 0 then .done (.ok quotient)
    else if quotient >>> (64 - UInt64.ofNat p) ≠ 0 then .done (.error .overflow)
    else .remainder fun low => quotient <<< UInt64.ofNat p ||| UInt64.ofNat low

def BitCursor.readRice (p : Nat) (cursor : BitCursor) : Except StreamError UInt64 × BitCursor :=
  match cursor.readUnary with
  | (.error reason, after) => (.error reason, after)
  | (.ok ones, after) =>
    match Rice.next p ones with
    | .done answer => (answer, after)
    | .remainder join => ((after.readField p).1.map join, (after.readField p).2)

end GolombSet
