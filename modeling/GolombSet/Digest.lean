import GolombSet.Hex
import GolombSet.Sha256

set_option autoImplicit false

namespace GolombSet

structure Digest where
  -- In the order in which they are hashed; a text starts with the last one.
  bytes : Bytes
  length_bytes : bytes.length = 32
deriving DecidableEq

inductive DigestError where
  | invalidLength (found : Nat)
  | invalidHex
deriving DecidableEq

def DigestError.message : DigestError → String
  | .invalidLength found => s!"Hash strings must have 64 hexadecimal digits, found {found}"
  | .invalidHex => "Invalid hexadecimal digits in hash string"

namespace Digest

def zero : Digest where
  bytes := List.replicate 32 0
  length_bytes := List.length_replicate

def ofBytes? (bytes : Bytes) : Option Digest :=
  bytes.sized? 32 Digest.mk

def doubleSha256 (message : Bytes) : Digest where
  bytes := Sha256.hash (Sha256.hash message)
  length_bytes := Sha256.length_hash _

def text (digest : Digest) : String :=
  Hex.encode digest.bytes.reverse

def describe (digest : Digest) : String :=
  s!"Hash({digest.text})"

def parse (text : String) : Except DigestError Digest :=
  Hex.parse 32 (fun bytes => ofBytes? bytes.reverse) .invalidLength .invalidHex text

def le (a b : Digest) : Bool :=
  decide (a.bytes ≤ b.bytes)

def sort (digests : List Digest) : List Digest :=
  digests.mergeSort le

end Digest

structure Outpoint where
  txid : Digest
  index : UInt32
deriving DecidableEq

namespace Outpoint

def zero : Outpoint where
  txid := Digest.zero
  index := 0

def toBytes (outpoint : Outpoint) : Bytes :=
  outpoint.txid.bytes ++ Bytes.ofNatLE 4 outpoint.index.toNat

def describe (outpoint : Outpoint) : String :=
  let txid := outpoint.txid.describe
  let index := outpoint.index
  s!"OutPoint \x7b txid: {txid}, index: {index} \x7d"

end Outpoint

end GolombSet
