import GolombSet.Builder.Build

set_option autoImplicit false

namespace GolombSet

inductive Builder.Origin where
  | withoutKey
  | withKey (key : Key) (p : Option UInt8)
  | withDigest (digest : Digest) (p : Option UInt8)
  | withFreshKey (fresh : Key) (p : Option UInt8)
deriving DecidableEq

namespace Builder.Origin

def key : Origin → Option Key
  | withoutKey => none
  | withKey key _ => some key
  | withDigest digest _ => some (Key.ofDigest digest)
  | withFreshKey fresh _ => some fresh

def parameter : Origin → Option UInt8
  | withoutKey => none
  | withKey _ p => p
  | withDigest _ p => p
  | withFreshKey _ p => p

end Builder.Origin

inductive Builder.Action where
  | setKey (key : Key)
  | setKeyFromDigest (digest : Digest)
  | setParameter (p : UInt8)
  | add (item : Bytes)
  | addAll (items : List Bytes)
  | addOutpoint (outpoint : Outpoint)
  | addDigest (digest : Digest)
  | addScript (script : Bytes)
  | resolveKey (fresh : Key)
  | build (fresh : Key)
deriving DecidableEq

namespace Builder

def create (origin : Origin) : Builder :=
  match origin.key, origin.parameter with
  | none, _ => empty
  | some key, none => withKey key
  | some key, some p => withKeyAndParameter key p

def perform (builder : Builder) : Action → Builder
  | .setKey key => builder.setKey key
  | .setKeyFromDigest digest => builder.setKeyFromDigest digest
  | .setParameter p => builder.setParameter p
  | .add item => builder.add item
  | .addAll items => builder.addAll items
  | .addOutpoint outpoint => builder.addOutpoint outpoint
  | .addDigest digest => builder.addDigest digest
  | .addScript script => builder.addScript script
  | .resolveKey fresh => (builder.resolveKey fresh).2
  | .build fresh => (builder.build fresh).2

def performAll (builder : Builder) (actions : List Action) : Builder :=
  actions.foldl perform builder

def run (origin : Origin) (actions : List Action) : Builder :=
  (create origin).performAll actions

end Builder

end GolombSet
