import GolombSet.Filter.Basic
import GolombSet.Key

set_option autoImplicit false

namespace GolombSet

structure Builder where
  key : Option Key
  parameter : Parameter
  items : Array Bytes
  -- The first parameter that was too big.
  rejected : Option UInt8
deriving DecidableEq

namespace Builder

def empty : Builder where
  key := none
  parameter := Parameter.standard
  items := #[]
  rejected := none

def setKey (builder : Builder) (key : Key) : Builder :=
  if builder.rejected.isNone then { builder with key := some key } else builder

def setKeyFromDigest (builder : Builder) (digest : Digest) : Builder :=
  builder.setKey (Key.ofDigest digest)

def setParameter (builder : Builder) (p : UInt8) : Builder :=
  if builder.rejected.isNone then
    match Parameter.check p with
    | .ok parameter => { builder with parameter := parameter }
    | .error _ => { builder with rejected := some p }
  else builder

def withKey (key : Key) : Builder :=
  empty.setKey key

def withKeyAndParameter (key : Key) (p : UInt8) : Builder :=
  -- The key is set first, so it stays even if the parameter is too big.
  (withKey key).setParameter p

def add (builder : Builder) (item : Bytes) : Builder :=
  { builder with items := builder.items.push item }

def addAll (builder : Builder) (items : List Bytes) : Builder :=
  items.foldl add builder

def addOutpoint (builder : Builder) (outpoint : Outpoint) : Builder :=
  builder.add outpoint.toBytes

def addDigest (builder : Builder) (digest : Digest) : Builder :=
  builder.add digest.bytes

def addScript (builder : Builder) (script : Bytes) : Builder :=
  builder.add script

def length (builder : Builder) : Nat :=
  builder.items.size

def isEmpty (builder : Builder) : Bool :=
  builder.items.isEmpty

/-- If there is no key yet, `fresh` becomes it. -/
def resolveKey (builder : Builder) (fresh : Key) : Except FilterError Key × Builder :=
  match builder.rejected with
  | some p => (.error (.parameterTooBig p), builder)
  | none =>
    let key := builder.key.getD fresh
    (.ok key, { builder with key := some key })

end Builder

end GolombSet
