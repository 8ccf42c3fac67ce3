import GolombSet.Rice

set_option autoImplicit false

namespace GolombSet

inductive Symbol where
  | bit (value : Bool)
  | field (width value : Nat)
  | unary (ones : Nat)
  | rice (p : Nat) (value : UInt64)
deriving DecidableEq

inductive Shape where
  | bit
  | field (width : Nat)
  | unary
  | rice (p : Nat)
deriving DecidableEq

namespace Symbol

def shape : Symbol → Shape
  | bit _ => .bit
  | field width _ => .field width
  | unary _ => .unary
  | rice p _ => .rice p

def bits : Symbol → Bits
  | bit value => [value]
  | field width value => Bits.ofNat width value
  | unary ones => List.replicate ones true ++ [false]
  | rice p value => Rice.code p value.toNat

end Symbol

def BitBuffer.append (buffer : BitBuffer) : Symbol → BitBuffer
  | .bit value => buffer.appendBit value
  | .field width value => buffer.appendField value width
  | .unary ones => buffer.appendUnary ones
  | .rice p value => buffer.appendRice p value

@[simp] theorem BitBuffer.bits_append (buffer : BitBuffer) (symbol : Symbol) :
    (buffer.append symbol).bits = buffer.bits ++ symbol.bits := by
  cases symbol <;> simp [append, Symbol.bits]

def BitBuffer.appendAll (buffer : BitBuffer) (symbols : List Symbol) : BitBuffer :=
  symbols.foldl append buffer

def BitCursor.read (cursor : BitCursor) : Shape → Except StreamError Symbol × BitCursor
  | .bit => cursor.readBit.map (Except.map .bit) id
  | .field width => (cursor.readField width).map (Except.map (.field width)) id
  | .unary => cursor.readUnary.map (Except.map .unary) id
  | .rice p => (cursor.readRice p).map (Except.map (.rice p)) id

/-- Goes on after a failure. -/
def BitCursor.readAll (cursor : BitCursor) :
    List Shape → List (Except StreamError Symbol × BitCursor)
  | [] => []
  | shape :: shapes =>
    let answer := cursor.read shape
    answer :: answer.2.readAll shapes

end GolombSet
