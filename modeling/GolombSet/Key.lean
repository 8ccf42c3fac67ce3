import GolombSet.Digest
import GolombSet.SipHash

set_option autoImplicit false

namespace GolombSet

structure Key where
  bytes : Bytes
  length_bytes : bytes.length = 16
deriving DecidableEq

inductive KeyError where
  | invalidLength (found : Nat)
  | invalidHex (text : String)
deriving DecidableEq

def KeyError.message : KeyError → String
  | .invalidLength found => s!"Keys must have 32 hexadecimal digits, found {found}"
  | .invalidHex text => s!"Invalid key {text}: Invalid character"

namespace Key

def ofBytes? (bytes : Bytes) : Option Key :=
  bytes.sized? 16 Key.mk

def ofDigest (digest : Digest) : Key where
  bytes := digest.bytes.take 16
  length_bytes := by simp [digest.length_bytes]

def low (key : Key) : UInt64 :=
  SipHash.word (key.bytes.take 8)

def high (key : Key) : UInt64 :=
  SipHash.word (key.bytes.drop 8)

def text (key : Key) : String :=
  Hex.encode key.bytes

def parse (text : String) : Except KeyError Key :=
  Hex.parse 16 ofBytes? .invalidLength (.invalidHex text) text

end Key

def itemHash (key : Key) (item : Bytes) : UInt64 :=
  SipHash.hash ⟨2, 4⟩ key.low key.high item

/-- The hash as a fraction of `2 ^ 64`, times the range. -/
def reduce (hash range : UInt64) : UInt64 :=
  UInt64.ofNat ((hash.toNat * range.toNat) >>> 64)

def place (key : Key) (range : UInt64) (item : Bytes) : UInt64 :=
  reduce (itemHash key item) range

end GolombSet
