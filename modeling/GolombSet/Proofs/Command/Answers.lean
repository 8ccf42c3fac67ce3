import GolombSet.Command.Run
import GolombSet.Proofs.Filter.Batch
import Mathlib.Data.List.Forall2

set_option autoImplicit false

namespace GolombSet.Command

def Finds (filter : RawFilter) (key : Key) (item : String) (answer : Bool) : Prop :=
  filter.contains key (itemBytes item) = .ok answer

def answerLines (items : List String) (answers : List Bool) : List String :=
  List.zipWith answerLine items answers

/-- What a query may say, whatever the filter holds. -/
inductive Answered (filter : RawFilter) (key : Key) (items : List String) :
    List String × Option Failure → Prop where
  | complete (answers : List Bool) (found : List.Forall₂ (Finds filter key) items answers)
      (batch : filter.containsAny key (items.map itemBytes) = .ok (answers.any id)) :
      Answered filter key items
        (answerLines items answers ++ [answerLine "any" (answers.any id)], none)
  | stopped (before after : List String) (item : String) (answers : List Bool)
      (reason : FilterError) (split : items = before ++ item :: after)
      (found : List.Forall₂ (Finds filter key) before answers)
      (failed : filter.contains key (itemBytes item) = .error reason) :
      Answered filter key items (answerLines before answers, some (.filter reason))

variable {filter : RawFilter} {key : Key} {items before : List String} {answers : List Bool}

theorem exists_finds_iff (found : List.Forall₂ (Finds filter key) items answers) :
    (∃ item ∈ items.map itemBytes, filter.contains key item = .ok true) ↔
      answers.any id = true := by
  induction found with
  | nil => simp
  | cons asked _ ih =>
    unfold Finds at asked
    rw [List.map_cons, List.exists_mem_cons_iff, ih, asked]
    simp

theorem forall_finds_iff (found : List.Forall₂ (Finds filter key) items answers) :
    (∀ item ∈ items.map itemBytes, filter.contains key item = .ok false) ↔
      answers.any id = false := by
  induction found with
  | nil => simp
  | cons asked _ ih =>
    unfold Finds at asked
    rw [List.map_cons, List.forall_mem_cons, ih, asked]
    simp

theorem containsAny_of_finds (found : List.Forall₂ (Finds filter key) items answers) :
    filter.containsAny key (items.map itemBytes) = .ok (answers.any id) := by
  cases any : answers.any id with
  | true => exact (RawFilter.containsAny_eq_true_iff ..).mpr ((exists_finds_iff found).mpr any)
  | false => exact (RawFilter.containsAny_eq_false_iff ..).mpr ((forall_finds_iff found).mpr any)

theorem exists_finds (filter : RawFilter) (key : Key) (items : List String) :
    (∃ answers, List.Forall₂ (Finds filter key) items answers) ∨
      ∃ before item after answers reason, items = before ++ item :: after ∧
        List.Forall₂ (Finds filter key) before answers ∧
        filter.contains key (itemBytes item) = .error reason := by
  induction items with
  | nil => exact .inl ⟨[], .nil⟩
  | cons first items ih =>
    cases asked : filter.contains key (itemBytes first) with
    | error reason => exact .inr ⟨[], first, items, [], reason, rfl, .nil, asked⟩
    | ok answer =>
      rcases ih with ⟨answers, found⟩ | ⟨before, item, after, answers, reason, rfl, found, failed⟩
      · exact .inl ⟨answer :: answers, .cons asked found⟩
      · exact .inr ⟨first :: before, item, after, answer :: answers, reason, rfl,
          .cons asked found, failed⟩

theorem answer_append (found : List.Forall₂ (Finds filter key) before answers)
    (all rest : List String) :
    answer filter key all (before ++ rest) =
      (answerLines before answers ++ (answer filter key all rest).1,
        (answer filter key all rest).2) := by
  induction found with
  | nil => rfl
  | cons asked _ ih =>
    unfold Finds at asked
    simp only [List.cons_append, answer, asked, ih]
    rfl

theorem answer_of_finds (found : List.Forall₂ (Finds filter key) items answers) :
    answer filter key items items =
      (answerLines items answers ++ [answerLine "any" (answers.any id)], none) := by
  have whole := answer_append found items []
  simpa only [List.append_nil, answer, containsAny_of_finds found] using whole

theorem answered (filter : RawFilter) (key : Key) (items : List String) :
    Answered filter key items (answer filter key items items) := by
  rcases exists_finds filter key items with ⟨answers, found⟩ |
    ⟨before, item, after, answers, reason, split, found, failed⟩
  · rw [answer_of_finds found]
    exact .complete answers found (containsAny_of_finds found)
  · have stop : answer filter key items (item :: after) = ([], some (.filter reason)) := by
      simp only [answer, failed]
    have whole := answer_append found items (item :: after)
    rw [← split, stop, List.append_nil] at whole
    rw [whole]
    exact .stopped before after item answers reason split found failed

end GolombSet.Command
