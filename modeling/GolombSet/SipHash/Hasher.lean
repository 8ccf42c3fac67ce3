import GolombSet.Key

set_option autoImplicit false

namespace GolombSet.SipHash

structure Hasher where
  rounds : Rounds
  state : State
  length : Nat
  -- The bytes that wait for the rest of their word, the first one lowest.
  tail : UInt64
  waiting : Nat
  waiting_lt : waiting < 8

namespace Hasher

def absorb (rounds : Rounds) (state : State) (length : Nat) (piece : Bytes) : Hasher where
  rounds := rounds
  state := (words piece).foldl (State.compress rounds) state
  length := length
  tail := word (piece.leftover 8)
  waiting := (piece.leftover 8).length
  waiting_lt := by
    simp only [Bytes.leftover, List.length_drop]
    omega

def ofKeys (rounds : Rounds) (k0 k1 : UInt64) : Hasher :=
  absorb rounds (State.ofKeys k0 k1) 0 []

def ofKey (rounds : Rounds) (key : Key) : Hasher :=
  ofKeys rounds key.low key.high

def extendTail (hasher : Hasher) (bytes : Bytes) : UInt64 :=
  hasher.tail ||| word bytes <<< UInt64.ofNat (8 * hasher.waiting)

def write (hasher : Hasher) (piece : Bytes) : Hasher :=
  let length := hasher.length + piece.length
  let needed := 8 - hasher.waiting
  if hasher.waiting = 0 then absorb hasher.rounds hasher.state length piece
  else if short : hasher.waiting + piece.length < 8 then
    { rounds := hasher.rounds
      state := hasher.state
      length := length
      tail := hasher.extendTail piece
      waiting := hasher.waiting + piece.length
      waiting_lt := short }
  else
    let first := hasher.extendTail (piece.take needed)
    absorb hasher.rounds (hasher.state.compress hasher.rounds first) length (piece.drop needed)

def finish (hasher : Hasher) : UInt64 :=
  let last := UInt64.ofNat (hasher.length % 256) <<< 56 ||| hasher.tail
  (hasher.state.compress hasher.rounds last).finish hasher.rounds

def digests (hasher : Hasher) : List Bytes → List UInt64
  | [] => [hasher.finish]
  | piece :: pieces => hasher.finish :: (hasher.write piece).digests pieces

end Hasher

end GolombSet.SipHash
