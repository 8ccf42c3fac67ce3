import GolombSet.Bits

set_option autoImplicit false

namespace GolombSet

inductive StreamError where
  | endOfStream
  | overflow
deriving DecidableEq

def StreamError.message : StreamError → String
  | .endOfStream => "Unexpected end of stream"
  | .overflow => "Decoded value does not fit in 64 bits"

structure BitCursor where
  byte : UInt8
  -- How many of the lowest bits of the byte at hand are still unread.
  left : Nat
  rest : Bytes
  position : Nat
deriving DecidableEq

namespace BitCursor

def ofBytes (bytes : Bytes) : BitCursor where
  byte := 0
  left := 0
  rest := bytes
  position := 0

def remaining (cursor : BitCursor) : Nat :=
  cursor.left + 8 * cursor.rest.length

def bits (cursor : BitCursor) : Bits :=
  Bits.ofNat cursor.left cursor.byte.toNat ++ Bits.ofBytes cursor.rest

def skip (cursor : BitCursor) (count : Nat) : BitCursor :=
  { cursor with left := cursor.left - count, position := cursor.position + count }

def advance (cursor : BitCursor) (byte : UInt8) (rest : Bytes) : BitCursor where
  byte := byte
  left := 8
  rest := rest
  position := cursor.position + cursor.left

def readFieldFrom (value width : Nat) (cursor : BitCursor) : Option (Nat × BitCursor) :=
  if width ≤ cursor.left then
    some (value <<< width + Bits.low width (cursor.byte.toNat >>> (cursor.left - width)),
      cursor.skip width)
  else
    match _taken : cursor.rest with
    | [] => none
    | byte :: rest =>
      readFieldFrom (value <<< cursor.left + Bits.low cursor.left cursor.byte.toNat)
        (width - cursor.left) (cursor.advance byte rest)
termination_by cursor.rest.length
decreasing_by simp_all [advance]

def readField (width : Nat) (cursor : BitCursor) : Except StreamError Nat × BitCursor :=
  match readFieldFrom 0 width cursor with
  | some (value, after) => (.ok value, after)
  | none => (.error .endOfStream, cursor)

def readBit (cursor : BitCursor) : Except StreamError Bool × BitCursor :=
  if 0 < cursor.left then
    (.ok (cursor.byte.toNat.testBit (cursor.left - 1)), cursor.skip 1)
  else
    match cursor.rest with
    | [] => (.error .endOfStream, cursor)
    | byte :: rest => (.ok (byte.toNat.testBit 7), (cursor.advance byte rest).skip 1)

/-- How many ones the `width` lowest bits of `value` start with. -/
def leadingOnes : Nat → Nat → Nat
  | 0, _ => 0
  | width + 1, value => if value.testBit width then leadingOnes width value + 1 else 0

def readUnaryFrom (ones : Nat) (cursor : BitCursor) : Except StreamError Nat × BitCursor :=
  let run := leadingOnes cursor.left cursor.byte.toNat
  if run < cursor.left then (.ok (ones + run), cursor.skip (run + 1))
  else
    match _taken : cursor.rest with
    | [] => (.error .endOfStream, cursor.skip cursor.left)
    | byte :: rest => readUnaryFrom (ones + cursor.left) (cursor.advance byte rest)
termination_by cursor.rest.length
decreasing_by simp_all [advance]

def readUnary (cursor : BitCursor) : Except StreamError Nat × BitCursor :=
  readUnaryFrom 0 cursor

@[simp] theorem bits_ofBytes (bytes : Bytes) : (ofBytes bytes).bits = Bits.ofBytes bytes := rfl

theorem length_bits (cursor : BitCursor) : cursor.bits.length = cursor.remaining := by
  simp [bits, remaining]

theorem readFieldFrom_eq_some (value width : Nat) (cursor : BitCursor)
    (enough : width ≤ cursor.remaining) :
    ∃ after, readFieldFrom value width cursor =
        some ((cursor.bits.take width).foldl (fun value bit => 2 * value + bit.toNat) value,
          after) ∧
      after.bits = cursor.bits.drop width ∧ after.position = cursor.position + width := by
  fun_induction readFieldFrom value width cursor with
  | case1 value width cursor within =>
    have split : Bits.ofNat cursor.left cursor.byte.toNat =
        Bits.ofNat width (cursor.byte.toNat >>> (cursor.left - width)) ++
          Bits.ofNat (cursor.left - width) cursor.byte.toNat := by
      rw [← Bits.ofNat_add]
      congr 1
      omega
    refine ⟨cursor.skip width, ?_, ?_, rfl⟩
    · simp [bits, split, Bits.foldl_ofNat]
    · simp [bits, split, skip]
  | case2 value width cursor beyond empty =>
    simp [remaining, empty] at enough
    omega
  | case3 value width cursor beyond byte rest taken ih =>
    have wide : cursor.left ≤ width := by omega
    have next : (cursor.advance byte rest).bits = Bits.ofBytes cursor.rest := by
      simp [bits, advance, taken, Bits.ofBytes]
    have here : cursor.bits = Bits.ofNat cursor.left cursor.byte.toNat ++
        (cursor.advance byte rest).bits := by rw [next, bits]
    have enough' : width - cursor.left ≤ (cursor.advance byte rest).remaining := by
      simp [remaining, taken, advance] at enough ⊢
      omega
    obtain ⟨after, read, unread, moved⟩ := ih enough'
    refine ⟨after, ?_, ?_, ?_⟩
    · rw [read, here]
      simp [List.take_append, List.take_of_length_le, wide, Bits.foldl_ofNat]
    · rw [unread, here]
      simp [List.drop_append, List.drop_of_length_le, wide]
    · rw [moved]
      simp [advance]
      omega

theorem readFieldFrom_eq_none (value width : Nat) (cursor : BitCursor)
    (short : cursor.remaining < width) : readFieldFrom value width cursor = none := by
  fun_induction readFieldFrom value width cursor with
  | case1 value width cursor within =>
    simp [remaining] at short
    omega
  | case2 => rfl
  | case3 value width cursor beyond byte rest taken ih =>
    apply ih
    simp [remaining, taken, advance] at short ⊢
    omega

theorem readFieldFrom_one (value : Nat) (cursor : BitCursor) (ready : 0 < cursor.left) :
    readFieldFrom value 1 cursor =
      some (2 * value + (cursor.byte.toNat.testBit (cursor.left - 1)).toNat, cursor.skip 1) := by
  have bit : Bits.low 1 (cursor.byte.toNat >>> (cursor.left - 1)) =
      Bits.low 1 (cursor.byte.toNat.testBit (cursor.left - 1)).toNat := by
    rw [Nat.testBit_eq_decide_div_mod_eq, ← Nat.shiftRight_eq_div_pow]
    rcases Nat.mod_two_eq_zero_or_one (cursor.byte.toNat >>> (cursor.left - 1)) with even | odd
    · simp [Bits.low, even]
    · simp [Bits.low, odd]
  have within : 1 ≤ cursor.left := ready
  rw [readFieldFrom, if_pos within, bit, Bits.shiftLeft_one_add_low]

theorem readBit_eq_readField (cursor : BitCursor) :
    cursor.readBit = ((cursor.readField 1).1.map (· == 1), (cursor.readField 1).2) := by
  have decoded (bit : Bool) : (2 * 0 + bit.toNat == 1) = bit := by cases bit <;> rfl
  by_cases ready : 0 < cursor.left
  · simp only [readBit, ready, if_true, readField, readFieldFrom_one 0 cursor ready, Except.map,
      decoded]
  · have none : cursor.left = 0 := Nat.eq_zero_of_not_pos ready
    cases taken : cursor.rest with
    | nil =>
      have short : cursor.remaining < 1 := by simp [remaining, none, taken]
      simp [readBit, none, taken, readField, readFieldFrom_eq_none 0 1 cursor short, Except.map]
    | cons byte rest =>
      have next := readFieldFrom_one 0 (cursor.advance byte rest) (Nat.zero_lt_succ 7)
      have field : readFieldFrom 0 1 cursor = readFieldFrom 0 1 (cursor.advance byte rest) := by
        obtain ⟨byte', left, rest', position⟩ := cursor
        subst none taken
        rw [readFieldFrom]
        simp [Bits.low, Nat.mod_one]
      simp only [readBit, none, taken, readField, field, next, Except.map, decoded]
      rfl

end BitCursor

end GolombSet
