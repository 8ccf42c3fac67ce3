import GolombSet.Bytes

set_option autoImplicit false

namespace GolombSet.SipHash

structure Rounds where
  compression : Nat
  finalization : Nat
deriving DecidableEq

structure State where
  v0 : UInt64
  v1 : UInt64
  v2 : UInt64
  v3 : UInt64
deriving DecidableEq

def rotate (word count : UInt64) : UInt64 :=
  word <<< count ||| word >>> (64 - count)

def State.ofKeys (k0 k1 : UInt64) : State where
  v0 := k0 ^^^ 0x736f6d6570736575
  v1 := k1 ^^^ 0x646f72616e646f6d
  v2 := k0 ^^^ 0x6c7967656e657261
  v3 := k1 ^^^ 0x7465646279746573

def State.round (s : State) : State :=
  let v0 := s.v0 + s.v1
  let v2 := s.v2 + s.v3
  let v1 := rotate s.v1 13 ^^^ v0
  let v3 := rotate s.v3 16 ^^^ v2
  let v0 := rotate v0 32 + v3
  let v2 := v2 + v1
  { v0 := v0
    v1 := rotate v1 17 ^^^ v2
    v2 := rotate v2 32
    v3 := rotate v3 21 ^^^ v0 }

def State.rounds : Nat → State → State
  | 0, s => s
  | count + 1, s => s.round.rounds count

def State.compress (rounds : Rounds) (s : State) (word : UInt64) : State :=
  let s := State.rounds rounds.compression { s with v3 := s.v3 ^^^ word }
  { s with v0 := s.v0 ^^^ word }

def State.finish (rounds : Rounds) (s : State) : UInt64 :=
  let s := State.rounds rounds.finalization { s with v2 := s.v2 ^^^ 0xff }
  s.v0 ^^^ s.v1 ^^^ s.v2 ^^^ s.v3

def word (bytes : Bytes) : UInt64 :=
  UInt64.ofNat bytes.toNatLE

def words (message : Bytes) : List UInt64 :=
  (message.blocks 8).map word

def lastWord (message : Bytes) : UInt64 :=
  UInt64.ofNat (message.length % 256) <<< 56 ||| word (message.leftover 8)

def hash (rounds : Rounds) (k0 k1 : UInt64) (message : Bytes) : UInt64 :=
  let absorbed := (words message).foldl (State.compress rounds) (State.ofKeys k0 k1)
  (absorbed.compress rounds (lastWord message)).finish rounds

end GolombSet.SipHash
