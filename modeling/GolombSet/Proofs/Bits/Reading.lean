import GolombSet.Symbol

set_option autoImplicit false

namespace GolombSet

namespace Bits

def readField (width : Nat) (bits : Bits) : Except StreamError Nat × Bits :=
  if width ≤ bits.length then (.ok (toNat (bits.take width)), bits.drop width)
  else (.error .endOfStream, bits)

def readBit (bits : Bits) : Except StreamError Bool × Bits :=
  match bits with
  | [] => (.error .endOfStream, [])
  | bit :: rest => (.ok bit, rest)

def readUnary : Bits → Except StreamError Nat × Bits
  | [] => (.error .endOfStream, [])
  | false :: rest => (.ok 0, rest)
  | true :: rest => ((readUnary rest).1.map (· + 1), (readUnary rest).2)

def readRice (p : Nat) (bits : Bits) : Except StreamError UInt64 × Bits :=
  match readUnary bits with
  | (.error reason, rest) => (.error reason, rest)
  | (.ok ones, rest) =>
    match Rice.next p ones with
    | .done answer => (answer, rest)
    | .remainder join => ((readField p rest).1.map join, (readField p rest).2)

def read (bits : Bits) : Shape → Except StreamError Symbol × Bits
  | .bit => (bits.readBit.1.map .bit, bits.readBit.2)
  | .field width => ((bits.readField width).1.map (.field width), (bits.readField width).2)
  | .unary => (bits.readUnary.1.map .unary, bits.readUnary.2)
  | .rice p => ((bits.readRice p).1.map (.rice p), (bits.readRice p).2)

theorem readUnary_replicate_append (ones : Nat) (bits : Bits) :
    readUnary (List.replicate ones true ++ bits) =
      ((readUnary bits).1.map (ones + ·), (readUnary bits).2) := by
  induction ones with
  | zero => cases h : (readUnary bits).1 <;> simp [Except.map, ← h]
  | succ ones ih =>
    rw [List.replicate_succ, List.cons_append, readUnary, ih]
    cases (readUnary bits).1 with
    | error => rfl
    | ok count =>
      simp only [Except.map, Prod.mk.injEq, Except.ok.injEq, and_true]
      omega

theorem readField_append (width value : Nat) (rest : Bits) :
    readField width (ofNat width value ++ rest) = (.ok (low width value), rest) := by
  simp [readField, toNat_ofNat]

theorem readUnary_append (ones : Nat) (rest : Bits) :
    readUnary (List.replicate ones true ++ false :: rest) = (.ok ones, rest) := by
  simp [readUnary_replicate_append, readUnary, Except.map]

end Bits

namespace BitCursor

def afterAll (cursor : BitCursor) (shapes : List Shape) : BitCursor :=
  shapes.foldl (fun cursor shape => (cursor.read shape).2) cursor

structure Follows {A : Type} (cursor : BitCursor) (step : Except StreamError A × BitCursor)
    (plain : Except StreamError A × Bits) : Prop where
  answer : step.1 = plain.1
  unread : step.2.bits = plain.2
  moved : step.2.position + step.2.remaining = cursor.position + cursor.remaining

theorem Follows.map {A B : Type} {cursor : BitCursor} {step : Except StreamError A × BitCursor}
    {plain : Except StreamError A × Bits} (follows : cursor.Follows step plain) (f : A → B) :
    cursor.Follows (step.1.map f, step.2) (plain.1.map f, plain.2) where
  answer := congrArg (Except.map f) follows.answer
  unread := follows.unread
  moved := follows.moved

theorem Follows.exists_after {A : Type} {cursor : BitCursor}
    {step : Except StreamError A × BitCursor} {answer : Except StreamError A} {rest : Bits}
    (follows : cursor.Follows step (answer, rest)) :
    ∃ after, step = (answer, after) ∧ after.bits = rest ∧
      after.position + rest.length = cursor.position + cursor.bits.length := by
  refine ⟨step.2, Prod.ext follows.answer rfl, follows.unread, ?_⟩
  have unread : step.2.bits = rest := follows.unread
  rw [← unread, length_bits, length_bits]
  exact follows.moved

theorem readField_follows (width : Nat) (cursor : BitCursor) :
    cursor.Follows (cursor.readField width) (cursor.bits.readField width) := by
  by_cases enough : width ≤ cursor.remaining
  · obtain ⟨after, read, unread, moved⟩ := readFieldFrom_eq_some 0 width cursor enough
    have rest : after.remaining = cursor.remaining - width := by
      rw [← length_bits, unread, List.length_drop, length_bits]
    constructor
    · simp [readField, read, Bits.readField, length_bits, enough, Bits.toNat]
    · simp [readField, read, Bits.readField, length_bits, enough, unread]
    · simp only [readField, read, moved, rest]
      omega
  · have none := readFieldFrom_eq_none 0 width cursor (Nat.lt_of_not_le enough)
    constructor <;> simp [readField, none, Bits.readField, length_bits, enough]

theorem readBit_follows (cursor : BitCursor) :
    cursor.Follows cursor.readBit cursor.bits.readBit := by
  have field := (readField_follows 1 cursor).map (· == 1)
  have same : ((cursor.bits.readField 1).1.map (· == 1), (cursor.bits.readField 1).2) =
      cursor.bits.readBit := by
    cases cursor.bits with
    | nil => rfl
    | cons bit rest => cases bit <;> simp [Bits.readField, Bits.readBit, Bits.toNat, Except.map]
  rwa [← readBit_eq_readField, same] at field

theorem ofNat_leadingOnes (width value : Nat) (ended : leadingOnes width value < width) :
    Bits.ofNat width value = List.replicate (leadingOnes width value) true ++
      false :: Bits.ofNat (width - (leadingOnes width value + 1)) value := by
  induction width with
  | zero => contradiction
  | succ width ih =>
    by_cases top : value.testBit width = true
    · simp only [leadingOnes, top, if_true] at ended ⊢
      have shorter : width + 1 - (leadingOnes width value + 1 + 1) =
          width - (leadingOnes width value + 1) := by omega
      rw [Bits.ofNat, top, ih (by omega), List.replicate_succ, shorter, List.cons_append]
    · simp [leadingOnes, top, Bits.ofNat]

theorem ofNat_of_width_le_leadingOnes (width value : Nat)
    (endless : ¬leadingOnes width value < width) :
    Bits.ofNat width value = List.replicate width true := by
  induction width with
  | zero => rfl
  | succ width ih =>
    by_cases top : value.testBit width = true
    · simp only [leadingOnes, top, if_true] at endless
      rw [Bits.ofNat, top, ih (by omega), List.replicate_succ]
    · simp [leadingOnes, top] at endless

theorem readUnaryFrom_follows (ones : Nat) (cursor : BitCursor) :
    cursor.Follows (cursor.readUnaryFrom ones)
      (cursor.bits.readUnary.1.map (ones + ·), cursor.bits.readUnary.2) := by
  fun_induction readUnaryFrom ones cursor with
  | case1 ones cursor run ended =>
    have here : cursor.bits =
        List.replicate run true ++ false :: (cursor.skip (run + 1)).bits := by
      rw [bits, ofNat_leadingOnes _ _ ended]
      simp [bits, skip, run]
    constructor
    · simp [here, Bits.readUnary_replicate_append, Bits.readUnary, Except.map]
    · simp [here, Bits.readUnary_replicate_append, Bits.readUnary]
    · simp only [skip, remaining]
      omega
  | case2 ones cursor run endless empty =>
    -- The stream ends in ones.
    have here : cursor.bits = List.replicate cursor.left true ++ [] := by
      simp [bits, ofNat_of_width_le_leadingOnes _ _ endless, empty, Bits.ofBytes]
    rw [here, Bits.readUnary_replicate_append]
    constructor
    · rfl
    · simp [Bits.readUnary, bits, skip, empty, Bits.ofNat, Bits.ofBytes]
    · simp [skip, remaining]
      omega
  | case3 ones cursor run endless byte rest taken ih =>
    -- All that is left of this byte is ones, and the run goes on in the next byte.
    have here : cursor.bits =
        List.replicate cursor.left true ++ (cursor.advance byte rest).bits := by
      simp [bits, ofNat_of_width_le_leadingOnes _ _ endless, taken, advance, Bits.ofBytes]
    have total : (cursor.advance byte rest).position + (cursor.advance byte rest).remaining =
        cursor.position + cursor.remaining := by
      simp [advance, remaining, taken]
      omega
    rw [here, Bits.readUnary_replicate_append]
    constructor
    · rw [ih.answer]
      cases (cursor.advance byte rest).bits.readUnary.1 <;> simp [Except.map, Nat.add_assoc]
    · exact ih.unread
    · rw [ih.moved, total]

theorem readUnary_follows (cursor : BitCursor) :
    cursor.Follows cursor.readUnary cursor.bits.readUnary := by
  have run := readUnaryFrom_follows 0 cursor
  have same : (cursor.bits.readUnary.1.map (0 + ·), cursor.bits.readUnary.2) =
      cursor.bits.readUnary := by
    cases h : cursor.bits.readUnary with
    | mk answer rest => cases answer <;> simp [Except.map]
  rwa [same] at run

theorem readRice_follows (p : Nat) (cursor : BitCursor) :
    cursor.Follows (cursor.readRice p) (cursor.bits.readRice p) := by
  have run := readUnary_follows cursor
  rcases quotient : cursor.readUnary with ⟨answer, after⟩
  rcases plain : cursor.bits.readUnary with ⟨expected, rest⟩
  rw [quotient, plain] at run
  obtain ⟨rfl, rfl, moved⟩ := run
  cases answer with
  | error reason =>
    constructor
    · simp [readRice, quotient, Bits.readRice, plain]
    · simp [readRice, quotient, Bits.readRice, plain]
    · simpa [readRice, quotient] using moved
  | ok ones =>
    simp only [readRice, quotient, Bits.readRice, plain]
    cases Rice.next p ones with
    | done answer => exact ⟨rfl, rfl, moved⟩
    | remainder join =>
      obtain ⟨answer, unread, moved'⟩ := (readField_follows p after).map join
      exact ⟨answer, unread, moved'.trans moved⟩

theorem read_follows (cursor : BitCursor) (shape : Shape) :
    cursor.Follows (cursor.read shape) (cursor.bits.read shape) := by
  cases shape with
  | bit => exact (readBit_follows cursor).map Symbol.bit
  | field width => exact (readField_follows width cursor).map (Symbol.field width)
  | unary => exact (readUnary_follows cursor).map Symbol.unary
  | rice p => exact (readRice_follows p cursor).map (Symbol.rice p)

end BitCursor

end GolombSet
