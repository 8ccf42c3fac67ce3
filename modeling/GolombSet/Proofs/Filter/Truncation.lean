import GolombSet.Proofs.Filter.Extension
import GolombSet.Proofs.Filter.Reencoding
import GolombSet.Proofs.Filter.Size

set_option autoImplicit false

namespace GolombSet

namespace Values

variable {values final : Values} {places : List UInt64} {fault : Option FilterError}

theorem Yields.interrupted (yields : values.Yields places (some .endOfStream) final)
    (small : values.p.toNat ≤ 64) : Rice.Interrupted values.p.toNat final.cursor.bits := by
  generalize reason : some FilterError.endOfStream = fault at yields
  induction yields with
  | ended => contradiction
  | @failed values after reason step idle =>
    cases reason
    obtain ⟨-, failed⟩ := next_eq_error step
    rw [(values.cursor.readRice_follows _).answer] at failed
    rcases advance_error_cases small failed with ⟨other, -⟩ | ⟨-, why, -⟩
    · contradiction
    · exact why
  | @passed values after final value places fault step later ih =>
    obtain ⟨-, -, rfl⟩ := next_eq_ok step
    exact ih small reason

end Values

theorem encodedLength_append (p : Nat) (values others : List UInt64) :
    encodedLength p (values ++ others) = encodedLength p values +
      ((gaps (values.getLastD 0) others).flatMap fun gap => Rice.code p gap.toNat).length := by
  rw [← length_codes, ← length_codes, gaps_append, List.flatMap_append, List.length_append]

theorem encodedLength_mono (p : Nat) {values others : List UInt64} (start : values <+: others) :
    encodedLength p values ≤ encodedLength p others := by
  obtain ⟨later, rfl⟩ := start
  rw [encodedLength_append]
  exact Nat.le_add_right _ _

namespace Filter

variable {filter : Filter} {found others : List UInt64} {fault : Option FilterError}
  {final : Values}

theorem encodedLength_add_remaining (yields : filter.values.Yields found fault final) :
    encodedLength filter.parameter.toNat found + final.cursor.remaining =
      8 * filter.data.length := by
  obtain ⟨coded, -⟩ := yields.coded filter.p_values_le
  have split : Bits.ofBytes filter.data = (gaps 0 found).flatMap
      (fun gap => Rice.code filter.parameter.toNat gap.toNat) ++ final.cursor.bits := coded
  rw [← length_codes, ← BitCursor.length_bits]
  exact Bits.length_of_ofBytes split

theorem lt_encodedLength_of_interrupted {suffix : Bytes} {place : UInt64} {final' : Values}
    {fault' : Option FilterError}
    (yields : filter.values.Yields found (some .endOfStream) final)
    (longer : (filter.extend suffix).values.Yields (found ++ place :: others) fault' final') :
    8 * filter.data.length < encodedLength filter.parameter.toNat (found ++ [place]) := by
  let gap := place - found.getLastD 0
  let code := Rice.code filter.parameter.toNat gap.toNat
  obtain ⟨short, -⟩ := yields.coded filter.p_values_le
  obtain ⟨long, -⟩ := longer.coded (filter.extend suffix).p_values_le
  have split : final.cursor.bits ++ Bits.ofBytes suffix = code ++
      ((gaps place others).flatMap (fun gap => Rice.code filter.parameter.toNat gap.toNat) ++
        final'.cursor.bits) := by
    rw [(filter.extends_values suffix).unread, short, gaps_append, gaps, List.flatMap_append,
      List.flatMap_cons, List.append_assoc, List.append_assoc, List.append_assoc] at long
    exact List.append_cancel_left long
  have size : encodedLength filter.parameter.toNat (found ++ [place]) =
      encodedLength filter.parameter.toNat found + code.length := by
    rw [encodedLength_append]
    simp [gaps, code, gap]
  have sizes := encodedLength_add_remaining yields
  apply Nat.lt_of_not_le
  intro inside
  have fits : code.length ≤ final.cursor.bits.length := by
    rw [BitCursor.length_bits]
    omega
  obtain ⟨rest, whole⟩ := List.prefix_of_prefix_length_le ⟨_, split.symm⟩
    (List.prefix_append final.cursor.bits _) fits
  have unbroken := Rice.not_interrupted_code_append filter.parameter.toNat gap.toNat rest
  rw [whole] at unbroken
  exact unbroken (yields.interrupted filter.p_values_le)

theorem lt_length_iff_of_interrupted {suffix : Bytes} {place : UInt64} {final' : Values}
    {fault' : Option FilterError}
    (yields : filter.values.Yields found (some .endOfStream) final)
    (longer : (filter.extend suffix).values.Yields (found ++ place :: others) fault' final')
    (index : Nat) :
    index < found.length ↔ encodedLength filter.parameter.toNat
      ((found ++ place :: others).take (index + 1)) ≤ 8 * filter.data.length := by
  constructor
  · intro inside
    have sizes := encodedLength_add_remaining yields
    have le := encodedLength_mono filter.parameter.toNat (List.take_prefix (index + 1) found)
    rw [List.take_append_of_le_length (show index + 1 ≤ found.length from inside)]
    omega
  · intro fits
    apply Nat.lt_of_not_le
    intro beyond
    have start : found ++ [place] <+: (found ++ place :: others).take (index + 1) :=
      List.prefix_take_iff.mpr ⟨⟨others, by simp⟩, by simpa using beyond⟩
    have le := encodedLength_mono filter.parameter.toNat start
    have missing := lt_encodedLength_of_interrupted yields longer
    omega

theorem next_after_truncate {places : List UInt64} {last : Values}
    (complete : filter.values.Yields places none last) {size : Nat}
    (short : 8 * size < encodedLength filter.parameter.toNat places) :
    ∃ whole < places.length,
      (∀ index, index < whole ↔
        encodedLength filter.parameter.toNat (places.take (index + 1)) ≤ 8 * size) ∧
      ∀ calls, ((filter.truncate size).values.after calls).next.1 =
        ((places.take whole).map Except.ok ++ [.error .endOfStream])[calls]? := by
  obtain ⟨found, fault, final, yields⟩ := (filter.truncate size).values.exists_yields
  obtain ⟨others, fault', final', longer, same⟩ :=
    yields.extend ((filter.truncate size).extends_values (filter.data.drop size))
      (filter.truncate size).p_values_le
  have length : (filter.truncate size).data.length = size := by
    have sizes := encodedLength_add_remaining complete
    rw [truncate, List.length_take]
    omega
  have sizes : encodedLength filter.parameter.toNat found + final.cursor.remaining = 8 * size :=
    length ▸ encodedLength_add_remaining yields
  have split : found ++ others = places := by
    rw [extend_truncate] at longer
    exact longer.places_eq.symm.trans complete.places_eq
  cases others with
  | nil =>
    rw [← split, List.append_nil] at short
    omega
  | cons place others =>
    have ended : fault = some .endOfStream := by
      apply Decidable.byContradiction
      intro decided
      exact List.cons_ne_nil place others (same decided).1
    subst ended
    have whole := lt_length_iff_of_interrupted yields longer
    rw [length, split] at whole
    refine ⟨found.length, by simp [← split], whole, ?_⟩
    intro calls
    rw [yields.next_after, ← split, List.take_left' rfl]
    rfl

end Filter

end GolombSet
