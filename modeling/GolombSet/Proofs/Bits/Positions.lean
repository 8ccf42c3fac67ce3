import GolombSet.Proofs.Bits.Codes

set_option autoImplicit false

namespace GolombSet

namespace Bits

def readBitAt (bits : Bits) (position : Nat) : Except StreamError Bool × Nat :=
  match bits[position]? with
  | some bit => (.ok bit, position + 1)
  | none => (.error .endOfStream, position)

def readFieldAt (width : Nat) (bits : Bits) (position : Nat) : Except StreamError Nat × Nat :=
  if position + width ≤ bits.length then
    (.ok (toNat ((bits.drop position).take width)), position + width)
  else (.error .endOfStream, position)

def readUnaryAt (bits : Bits) (position : Nat) : Except StreamError Nat × Nat :=
  let unread := bits.drop position
  if false ∈ unread then (.ok (unread.idxOf false), position + unread.idxOf false + 1)
  else (.error .endOfStream, bits.length)

def readRiceAt (p : Nat) (bits : Bits) (position : Nat) : Except StreamError UInt64 × Nat :=
  match bits.readUnaryAt position with
  | (.error reason, after) => (.error reason, after)
  | (.ok ones, after) =>
    match Rice.next p ones with
    | .done answer => (answer, after)
    | .remainder join => ((bits.readFieldAt p after).1.map join, (bits.readFieldAt p after).2)

def readAt (bits : Bits) (position : Nat) : Shape → Except StreamError Symbol × Nat
  | .bit => (bits.readBitAt position).map (Except.map .bit) id
  | .field width => (bits.readFieldAt width position).map (Except.map (.field width)) id
  | .unary => (bits.readUnaryAt position).map (Except.map .unary) id
  | .rice p => (bits.readRiceAt p position).map (Except.map (.rice p)) id

def readAllAt (bits : Bits) (position : Nat) :
    List Shape → List (Except StreamError Symbol × Nat)
  | [] => []
  | shape :: shapes =>
    let answer := bits.readAt position shape
    answer :: bits.readAllAt answer.2 shapes

/-- A read from the bits after a position ends at another one, which is not before it. -/
structure Locates {A : Type} (bits : Bits) (position : Nat) (plain : Except StreamError A × Bits)
    (located : Except StreamError A × Nat) : Prop where
  answer : plain.1 = located.1
  unread : plain.2 = bits.drop located.2
  forward : position ≤ located.2
  within : located.2 ≤ bits.length

theorem Locates.map {A B : Type} {bits : Bits} {position : Nat}
    {plain : Except StreamError A × Bits} {located : Except StreamError A × Nat}
    (locates : bits.Locates position plain located) (f : A → B) :
    bits.Locates position (plain.1.map f, plain.2) (located.map (Except.map f) id) where
  answer := congrArg (Except.map f) locates.answer
  unread := locates.unread
  forward := locates.forward
  within := locates.within

variable {bits : Bits} {position : Nat}

theorem readBit_locates (within : position ≤ bits.length) :
    bits.Locates position (readBit (bits.drop position)) (bits.readBitAt position) := by
  by_cases inside : position < bits.length
  · have here : bits.drop position = bits[position] :: bits.drop (position + 1) :=
      List.drop_eq_getElem_cons inside
    rw [here, readBit, readBitAt, List.getElem?_eq_getElem inside]
    exact ⟨rfl, rfl, Nat.le_succ _, inside⟩
  · rw [List.drop_of_length_le (Nat.le_of_not_lt inside), readBit, readBitAt,
      List.getElem?_eq_none (Nat.le_of_not_lt inside)]
    exact ⟨rfl, (List.drop_of_length_le (Nat.le_of_not_lt inside)).symm, Nat.le_refl _, within⟩

theorem readField_locates (width : Nat) (within : position ≤ bits.length) :
    bits.Locates position (readField width (bits.drop position))
      (bits.readFieldAt width position) := by
  by_cases enough : position + width ≤ bits.length
  · have enough' : width ≤ (bits.drop position).length := by
      rw [List.length_drop]
      omega
    rw [readField, if_pos enough', readFieldAt, if_pos enough]
    exact ⟨rfl, List.drop_drop, Nat.le_add_right _ _, enough⟩
  · have short : ¬width ≤ (bits.drop position).length := by
      rw [List.length_drop]
      omega
    rw [readField, if_neg short, readFieldAt, if_neg enough]
    exact ⟨rfl, rfl, Nat.le_refl _, within⟩

theorem readUnary_eq (bits : Bits) :
    readUnary bits =
      if false ∈ bits then (.ok (bits.idxOf false), bits.drop (bits.idxOf false + 1))
      else (.error .endOfStream, []) := by
  rcases readUnary_cases bits with ⟨ones, rest, rfl, read⟩ | ⟨endless, read⟩
  · have first : (List.replicate ones true ++ false :: rest).idxOf false = ones := by
      simp [List.idxOf_append]
    rw [read, first]
    simp [List.drop_append]
  · have missing : false ∉ bits := by
      rw [endless]
      simp
    rw [read, if_neg missing]

theorem readUnary_locates (within : position ≤ bits.length) :
    bits.Locates position (readUnary (bits.drop position)) (bits.readUnaryAt position) := by
  rw [readUnary_eq, readUnaryAt]
  by_cases found : false ∈ bits.drop position
  · have inside := List.idxOf_lt_length_iff.mpr found
    rw [List.length_drop] at inside
    rw [if_pos found, if_pos found]
    exact ⟨rfl, by rw [List.drop_drop]; rfl, by dsimp only; omega, by dsimp only; omega⟩
  · rw [if_neg found, if_neg found]
    exact ⟨rfl, List.drop_length.symm, within, Nat.le_refl _⟩

theorem readRice_locates (p : Nat) (within : position ≤ bits.length) :
    bits.Locates position (readRice p (bits.drop position)) (bits.readRiceAt p position) := by
  have run := readUnary_locates within
  rcases plain : readUnary (bits.drop position) with ⟨answer, rest⟩
  rcases located : bits.readUnaryAt position with ⟨expected, after⟩
  rw [plain, located] at run
  obtain ⟨answered, unread, forward, within⟩ := run
  dsimp only at answered unread forward within
  subst answered unread
  cases answer with
  | error reason =>
    rw [readRice, plain, readRiceAt, located]
    exact ⟨rfl, rfl, forward, within⟩
  | ok ones =>
    simp only [readRice, plain, readRiceAt, located]
    cases Rice.next p ones with
    | done answer => exact ⟨rfl, rfl, forward, within⟩
    | remainder join =>
      have low := (readField_locates p within).map join
      exact ⟨low.answer, low.unread, Nat.le_trans forward low.forward, low.within⟩

theorem read_locates (shape : Shape) (within : position ≤ bits.length) :
    bits.Locates position (read (bits.drop position) shape) (bits.readAt position shape) := by
  cases shape with
  | bit => exact (readBit_locates within).map Symbol.bit
  | field width => exact (readField_locates width within).map (Symbol.field width)
  | unary => exact (readUnary_locates within).map Symbol.unary
  | rice p => exact (readRice_locates p within).map (Symbol.rice p)

end Bits

namespace BitCursor

structure StandsIn (bits : Bits) (cursor : BitCursor) : Prop where
  unread : cursor.bits = bits.drop cursor.position
  within : cursor.position ≤ bits.length

variable {bits : Bits} {cursor : BitCursor}

theorem StandsIn.total (stands : cursor.StandsIn bits) :
    cursor.position + cursor.remaining = bits.length := by
  have within := stands.within
  rw [← length_bits, stands.unread, List.length_drop]
  omega

theorem StandsIn.read (stands : cursor.StandsIn bits) (shape : Shape) :
    let step := cursor.read shape
    (step.1, step.2.position) = bits.readAt cursor.position shape ∧
      cursor.position ≤ step.2.position ∧ step.2.StandsIn bits := by
  intro step
  have follows : cursor.Follows step (cursor.bits.read shape) := cursor.read_follows shape
  have locates := Bits.read_locates shape stands.within
  rw [← stands.unread] at locates
  have unread := follows.unread.trans locates.unread
  have moved : step.2.position = (bits.readAt cursor.position shape).2 := by
    have total := follows.moved.trans stands.total
    have within := locates.within
    rw [← length_bits, unread, List.length_drop] at total
    omega
  rw [← moved] at unread
  exact ⟨Prod.ext (follows.answer.trans locates.answer) moved, moved ▸ locates.forward, unread,
    moved ▸ locates.within⟩

theorem StandsIn.readAll (stands : cursor.StandsIn bits) (shapes : List Shape) :
    let answers := cursor.readAll shapes
    answers.map (fun answer => (answer.1, answer.2.position)) =
        bits.readAllAt cursor.position shapes ∧
      (∀ answer ∈ answers, answer.2.StandsIn bits) ∧
      (cursor.position :: answers.map fun answer => answer.2.position).Pairwise (· ≤ ·) := by
  induction shapes generalizing cursor with
  | nil => exact ⟨rfl, by simp [BitCursor.readAll], List.pairwise_singleton _ _⟩
  | cons shape shapes ih =>
    obtain ⟨located, forward, after⟩ := stands.read shape
    obtain ⟨answers, standing, ascending⟩ := ih after
    refine ⟨?_, ?_, .cons ?_ ascending⟩
    · rw [Bits.readAllAt, ← located, ← answers, BitCursor.readAll, List.map_cons]
    · exact List.forall_mem_cons.mpr ⟨after, standing⟩
    · exact List.forall_mem_cons.mpr ⟨forward, fun later member =>
        Nat.le_trans forward (List.rel_of_pairwise_cons ascending member)⟩

theorem standsIn_ofBytes (data : Bytes) : (ofBytes data).StandsIn (Bits.ofBytes data) where
  unread := rfl
  within := Nat.zero_le _

theorem readAll_exact (data : Bytes) (shapes : List Shape) :
    let bits := Bits.ofBytes data
    let answers := (ofBytes data).readAll shapes
    answers.map (fun answer => (answer.1, answer.2.position)) = bits.readAllAt 0 shapes ∧
      (∀ answer ∈ answers, answer.2.bits = bits.drop answer.2.position ∧
        answer.2.position ≤ 8 * data.length ∧
        answer.2.position + answer.2.remaining = 8 * data.length) ∧
      (0 :: answers.map fun answer => answer.2.position).Pairwise (· ≤ ·) := by
  intro bits answers
  obtain ⟨located, standing, ascending⟩ := (standsIn_ofBytes data).readAll shapes
  have size : bits.length = 8 * data.length := Bits.length_ofBytes data
  refine ⟨located, fun answer member => ?_, ascending⟩
  have stands := standing answer member
  exact ⟨stands.unread, size ▸ stands.within, size ▸ stands.total⟩

theorem readAll_exact_after_failures :
    let cursor := ofBytes [0xff, 0xf0]
    let answers := cursor.readAll [.unary, .field 4, .field 3, .bit]
    let first := cursor.read .unary
    answers.map (fun answer => (answer.1, answer.2.position)) =
        [(.ok (.unary 12), 13), (.error .endOfStream, 13), (.ok (.field 3 0), 16),
          (.error .endOfStream, 16)] ∧
      first ∈ answers ∧ first.2.position + first.2.remaining = 16 := by
  intro cursor answers first
  obtain ⟨located, standing, -⟩ :=
    readAll_exact [0xff, 0xf0] [.unary, .field 4, .field 3, .bit]
  have member : first ∈ answers := .head _
  exact ⟨located.trans rfl, member, (standing first member).2.2⟩

end BitCursor

end GolombSet
