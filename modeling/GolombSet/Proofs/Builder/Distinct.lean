import GolombSet.Builder.Build
import GolombSet.Proofs.Places
import Mathlib.Data.List.Dedup

set_option autoImplicit false

namespace GolombSet

section

variable {A : Type} [DecidableEq A]

theorem mem_distinct (a : A) (list : List A) : a ∈ distinct list ↔ a ∈ list := by
  fun_induction distinct list with
  | case1 | case2 => rfl
  | case3 b rest ih => simp [ih]
  | case4 b c rest different ih => simp [ih]

theorem distinct_sublist (list : List A) : (distinct list).Sublist list := by
  fun_induction distinct list with
  | case1 | case2 => exact List.Sublist.refl _
  | case3 b rest ih => exact ih.cons b
  | case4 b c rest different ih => exact ih.cons_cons b

theorem nodup_distinct {le : A → A → Prop} (antisymm : ∀ a b, le a b → le b a → a = b)
    (list : List A) (sorted : list.Pairwise le) : (distinct list).Nodup := by
  fun_induction distinct list with
  | case1 => exact List.nodup_nil
  | case2 a => exact List.nodup_singleton a
  | case3 b rest ih => exact ih sorted.of_cons
  | case4 b c rest different ih =>
    refine List.nodup_cons.mpr ⟨?_, ih sorted.of_cons⟩
    intro again
    -- What comes later is not below `c`, so `b` could only be there as `c` itself.
    have ahead := List.rel_of_pairwise_cons sorted (List.mem_cons_self ..)
    rcases List.mem_cons.mp ((mem_distinct b _).mp again) with same | later
    · exact different same
    · exact different (antisymm b c ahead (List.rel_of_pairwise_cons sorted.of_cons later))

end

theorem mem_distinctItems (item : Bytes) (items : List Bytes) :
    item ∈ distinctItems items ↔ item ∈ items := by
  rw [distinctItems, mem_distinct, List.mem_mergeSort]

theorem nodup_distinctItems (items : List Bytes) : (distinctItems items).Nodup :=
  nodup_distinct (fun _ _ => List.le_antisymm) _ (pairwise_mergeSort items)

theorem distinctItems_perm (items : List Bytes) : (distinctItems items).Perm items.dedup := by
  refine (List.perm_ext_iff_of_nodup (nodup_distinctItems items) items.nodup_dedup).mpr ?_
  intro item
  rw [mem_distinctItems, List.mem_dedup]

theorem length_distinctItems (items : List Bytes) :
    (distinctItems items).length = items.dedup.length :=
  (distinctItems_perm items).length_eq

theorem distinctItems_congr {items others : List Bytes}
    (same : ∀ item, item ∈ others ↔ item ∈ items) : distinctItems others = distinctItems items := by
  have sorted (list : List Bytes) : (distinctItems list).Pairwise (· ≤ ·) :=
    (pairwise_mergeSort list).sublist (distinct_sublist _)
  have perm : (distinctItems others).Perm (distinctItems items) := by
    refine (List.perm_ext_iff_of_nodup (nodup_distinctItems _) (nodup_distinctItems _)).mpr ?_
    intro item
    rw [mem_distinctItems, mem_distinctItems, same]
  exact perm.eq_of_pairwise (fun _ _ _ _ => List.le_antisymm) (sorted others) (sorted items)

end GolombSet
