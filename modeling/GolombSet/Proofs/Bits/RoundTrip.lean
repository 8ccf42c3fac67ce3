import GolombSet.Proofs.Bits.Codes
import GolombSet.Proofs.Bits.Padding
import Mathlib.Algebra.Group.Nat.Defs

set_option autoImplicit false

namespace GolombSet

/-- A field loses the bits above its width. -/
def Symbol.kept : Symbol → Symbol
  | bit value => bit value
  | field width value => field width (value % 2 ^ width)
  | unary ones => unary ones
  | rice p value => rice p value

theorem Bits.read_append (symbol : Symbol) (rest : Bits) :
    Bits.read (symbol.bits ++ rest) symbol.shape = (.ok symbol.kept, rest) := by
  cases symbol with
  | bit value => rfl
  | field width value =>
    simp [Bits.read, Symbol.bits, Symbol.shape, Symbol.kept, Bits.readField_append, Except.map,
      Bits.low, Nat.shiftLeft_eq]
  | unary ones =>
    simp [Bits.read, Symbol.bits, Symbol.shape, Symbol.kept, Bits.readUnary_append, Except.map]
  | rice p value =>
    simp [Bits.read, Symbol.bits, Symbol.shape, Symbol.kept, Bits.readRice_append, Except.map]

@[simp] theorem BitBuffer.bits_appendAll (buffer : BitBuffer) (symbols : List Symbol) :
    (buffer.appendAll symbols).bits = buffer.bits ++ symbols.flatMap Symbol.bits := by
  unfold appendAll
  induction symbols generalizing buffer with
  | nil => simp
  | cons symbol symbols ih => simp [ih]

namespace BitCursor

theorem read_append (cursor : BitCursor) (symbol : Symbol) (rest : Bits)
    (coded : cursor.bits = symbol.bits ++ rest) :
    ∃ after, cursor.read symbol.shape = (.ok symbol.kept, after) ∧ after.bits = rest ∧
      after.position = cursor.position + symbol.bits.length := by
  have follows := read_follows cursor symbol.shape
  rw [coded, Bits.read_append] at follows
  obtain ⟨after, read, unread, moved⟩ := follows.exists_after
  rw [coded, List.length_append] at moved
  exact ⟨after, read, unread, by omega⟩

theorem readAll_append (cursor : BitCursor) (symbols : List Symbol) (rest : Bits)
    (coded : cursor.bits = symbols.flatMap Symbol.bits ++ rest) :
    let answers := cursor.readAll (symbols.map Symbol.shape)
    answers.map Prod.fst = symbols.map (fun symbol => .ok symbol.kept) ∧
      answers.map (fun answer => answer.2.position) =
        (List.range symbols.length).map (fun k =>
          cursor.position + ((symbols.take (k + 1)).flatMap Symbol.bits).length) ∧
      (cursor.afterAll (symbols.map Symbol.shape)).bits = rest := by
  induction symbols generalizing cursor with
  | nil => exact ⟨rfl, rfl, coded⟩
  | cons symbol symbols ih =>
    rw [List.flatMap_cons, List.append_assoc] at coded
    obtain ⟨after, read, unread, moved⟩ := read_append cursor symbol _ coded
    obtain ⟨answers, positions, last⟩ := ih after unread
    refine ⟨?_, ?_, ?_⟩
    · simpa [readAll, read] using answers
    · simp [readAll, read, positions, moved, List.range_succ_eq_map, Function.comp_def,
        Nat.add_assoc]
    · simpa [afterAll, read] using last

end BitCursor

theorem readAll_appendAll (capacity : Nat) (symbols : List Symbol) :
    let write := (BitBuffer.withCapacity capacity).appendAll
    let cursor := BitCursor.ofBytes (write symbols).toBytes
    let answers := cursor.readAll (symbols.map Symbol.shape)
    let last := cursor.afterAll (symbols.map Symbol.shape)
    answers.map Prod.fst = symbols.map (fun symbol => .ok symbol.kept) ∧
      answers.map (fun answer => answer.2.position) =
        (List.range symbols.length).map (fun k => (write (symbols.take (k + 1))).length) ∧
      last.remaining ≤ 7 ∧
      (last.readAll (List.replicate last.remaining .bit)).map Prod.fst =
        List.replicate last.remaining (.ok (.bit false)) := by
  intro write cursor answers last
  have coded : cursor.bits = symbols.flatMap Symbol.bits ++
      List.replicate (write symbols).padding false := by
    simp [cursor, write, BitBuffer.ofBytes_toBytes]
  obtain ⟨read, moved, unread⟩ := cursor.readAll_append symbols _ coded
  have left : last.remaining = (write symbols).padding := by
    rw [← BitCursor.length_bits, unread, List.length_replicate]
  -- The padding reads as single bits, one symbol for each.
  have zeros : last.bits =
      (List.replicate last.remaining (Symbol.bit false)).flatMap Symbol.bits ++ [] := by
    rw [unread, left]
    simp [List.flatMap_replicate, Symbol.bits]
  refine ⟨read, ?_, ?_, ?_⟩
  · rw [moved]
    simp [write, ← BitBuffer.length_bits, cursor, BitCursor.ofBytes]
  · have bound := (write symbols).padding_lt
    omega
  · simpa [Symbol.shape, Symbol.kept] using (last.readAll_append _ [] zeros).1

end GolombSet
