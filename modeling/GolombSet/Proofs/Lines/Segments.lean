import GolombSet.Proofs.Lines

set_option autoImplicit false

namespace GolombSet.Lines

structure Segment (Fault : Type) where
  text : Bytes
  fault : Option Fault
deriving DecidableEq

variable {Fault : Type} {front : Bytes}

def segmentsFrom (text : Bytes) : List (Delivery Fault) → List (Segment Fault)
  | [] => [⟨text, none⟩]
  | .chunk bytes :: rest => segmentsFrom (text ++ bytes) rest
  | .interrupted :: rest => segmentsFrom text rest
  | .failure fault :: rest => ⟨text, some fault⟩ :: segmentsFrom [] rest

def segments (source : List (Delivery Fault)) : List (Segment Fault) :=
  segmentsFrom [] source

/-- A failure takes the place of what stands before it without a newline. -/
def Segment.results (segment : Segment Fault) : List (Except Fault Bytes) :=
  match segment.fault with
  | none => (split segment.text).map .ok
  | some fault => (terminated segment.text).map .ok ++ [.error fault]

def resultsFrom (text : Bytes) (source : List (Delivery Fault)) : List (Except Fault Bytes) :=
  (segmentsFrom text source).flatMap Segment.results

theorem Segment.results_append (plain : newline ∉ front) (rest : Bytes) (fault : Option Fault) :
    Segment.results ⟨front ++ newline :: rest, fault⟩ =
      .ok (trimReturn front) :: Segment.results ⟨rest, fault⟩ := by
  cases fault <;>
    simp [results, split, terminated_append, unterminated_append, List.splitOn_eq_singleton plain]

theorem resultsFrom_append (plain : newline ∉ front) (rest : Bytes)
    (source : List (Delivery Fault)) :
    resultsFrom (front ++ newline :: rest) source =
      .ok (trimReturn front) :: resultsFrom rest source := by
  induction source generalizing rest with
  | nil => simp [resultsFrom, segmentsFrom, Segment.results_append plain]
  | cons delivery source ih =>
    cases delivery with
    | chunk bytes => simpa [resultsFrom, segmentsFrom] using ih (rest ++ bytes)
    | interrupted => simpa [resultsFrom, segmentsFrom] using ih rest
    | failure fault => simp [resultsFrom, segmentsFrom, Segment.results_append plain]

theorem resultsFrom_eq {line : Bytes} (plain : newline ∉ line) (source : List (Delivery Fault)) :
    resultsFrom line source =
      match nextFrom line source with
      | (none, _) => []
      | (some result, after) => result :: resultsFrom [] after := by
  induction source generalizing line with
  | nil =>
    by_cases empty : line = [] <;>
      simp [resultsFrom, segmentsFrom, Segment.results, nextFrom, split_of_plain, plain, empty]
  | cons delivery source ih =>
    cases delivery with
    | interrupted => exact ih plain
    | failure fault =>
      simp [resultsFrom, segmentsFrom, Segment.results, nextFrom, terminated_of_plain plain]
    | chunk bytes =>
      by_cases found : newline ∈ bytes
      · obtain ⟨front, after, rfl, unbroken⟩ := List.eq_append_cons_of_mem found
        have open' : newline ∉ line ++ front := by simp [plain, unbroken]
        have first := resultsFrom_append open' after source
        rw [nextFrom_append unbroken]
        simpa [resultsFrom, segmentsFrom] using first
      · rw [nextFrom_of_plain found]
        exact ih (by simp [plain, found])

theorem toList_eq (source : List (Delivery Fault)) : toList source = resultsFrom [] source := by
  fun_induction toList source with
  | case1 source after step =>
    have first := resultsFrom_eq List.not_mem_nil source
    rw [next] at step
    rw [first, step]
  | case2 source result after step ih =>
    have first := resultsFrom_eq List.not_mem_nil source
    rw [next] at step
    rw [first, step, ih]

def after : Nat → List (Delivery Fault) → List (Delivery Fault)
  | 0, source => source
  | calls + 1, source => after calls (next source).2

theorem nextFrom_of_none {line : Bytes} {source rest : List (Delivery Fault)}
    (ended : nextFrom line source = (none, rest)) : rest = [] := by
  fun_induction nextFrom line source with
  | case1 => exact (Prod.mk.inj ended).2.symm
  | case2 line source ih => exact ih ended
  | case3 => simp at ended
  | case4 line bytes source none ih => exact ih ended
  | case5 => simp at ended

theorem next_after (source : List (Delivery Fault)) (calls : Nat) :
    (next (after calls source)).1 = (toList source)[calls]? := by
  induction calls generalizing source with
  | zero =>
    rw [after, toList_of_next]
    rcases next source with ⟨_ | result, rest⟩ <;> rfl
  | succ calls ih =>
    rw [after, ih, toList_of_next source]
    rcases step : next source with ⟨_ | result, rest⟩
    · have nothing : toList ([] : List (Delivery Fault)) = [] := toList_eq []
      simp [nextFrom_of_none step, nothing]
    · rfl

def Delivery.bytes : Delivery Fault → Bytes
  | chunk bytes => bytes
  | interrupted | failure _ => []

theorem segmentsFrom_append {pieces : List (Delivery Fault)}
    (sound : ∀ fault, .failure fault ∉ pieces) (text : Bytes) (later : List (Delivery Fault)) :
    segmentsFrom text (pieces ++ later) =
      segmentsFrom (text ++ pieces.flatMap Delivery.bytes) later := by
  induction pieces generalizing text with
  | nil => simp
  | cons piece pieces ih =>
    have sound' (fault : Fault) : .failure fault ∉ pieces :=
      fun member => sound fault (List.mem_cons_of_mem _ member)
    cases piece with
    | chunk bytes => simp [segmentsFrom, ih sound', Delivery.bytes]
    | interrupted => simp [segmentsFrom, ih sound', Delivery.bytes]
    | failure fault => exact absurd (List.mem_cons_self ..) (sound fault)

theorem resultsFrom_congr {source other : List (Delivery Fault)}
    (same : ∀ text, resultsFrom text source = resultsFrom text other)
    (before : List (Delivery Fault)) (text : Bytes) :
    resultsFrom text (before ++ source) = resultsFrom text (before ++ other) := by
  induction before generalizing text with
  | nil => exact same text
  | cons delivery before ih =>
    cases delivery with
    | chunk bytes => exact ih (text ++ bytes)
    | interrupted => exact ih text
    | failure fault => exact congrArg (Segment.results ⟨text, some fault⟩ ++ ·) (ih [])

theorem results_exact (source : List (Delivery Fault)) :
    (∀ calls, (next (after calls source)).1 =
        ((segments source).flatMap Segment.results)[calls]?) ∧
      (∀ line, trimReturn (line ++ [carriageReturn]) = line ∧
        (line.getLast? ≠ some carriageReturn → trimReturn line = line)) ∧
      (∀ before pieces later : List (Delivery Fault), (∀ fault, .failure fault ∉ pieces) →
        toList (before ++ pieces ++ later) =
          toList (before ++ .chunk (pieces.flatMap Delivery.bytes) :: later)) ∧
      ∀ (before later : List (Delivery Fault)) (dropped : Bytes) (fault : Fault),
        newline ∉ dropped →
        toList (before ++ .chunk dropped :: .failure fault :: later) =
          toList (before ++ .failure fault :: later) := by
  refine ⟨?_, ?_, ?_, ?_⟩
  · intro calls
    rw [next_after, toList_eq]
    rfl
  · intro line
    constructor
    · simp [trimReturn]
    · exact fun other => if_neg other
  · intro before pieces later sound
    rw [toList_eq, toList_eq, List.append_assoc]
    apply resultsFrom_congr
    intro text
    rw [resultsFrom, segmentsFrom_append sound]
    rfl
  · intro before later dropped fault plain
    rw [toList_eq, toList_eq]
    apply resultsFrom_congr
    intro text
    simp [resultsFrom, segmentsFrom, Segment.results, terminated_append_plain text plain]

theorem results_exact_return_apart_and_failure :
    let pieces : List (Delivery Nat) := [.chunk [65, 13], .interrupted, .chunk [10, 66]]
    let later : List (Delivery Nat) := [.failure 7, .chunk [10, 13]]
    (∀ fault, .failure fault ∉ pieces) ∧ newline ∉ [66] ∧ [66].getLast? ≠ some carriageReturn ∧
      (∀ calls, (next (after calls (pieces ++ later))).1 =
        [.ok [65], .error 7, .ok [], .ok [13]][calls]?) ∧
      toList (pieces ++ later) = toList (.chunk [65, 13, 10, 66] :: later) ∧
      toList (.chunk [65, 13, 10] :: .chunk [66] :: later) =
        toList (.chunk [65, 13, 10] :: later) ∧
      trimReturn [66] = [66] := by
  intro pieces later
  have sound : ∀ fault, .failure fault ∉ pieces := by simp [pieces]
  have plain : newline ∉ [66] := by decide
  have other : [66].getLast? ≠ some carriageReturn := by decide
  have all : (segments (pieces ++ later)).flatMap Segment.results =
      [.ok [65], .error 7, .ok [], .ok [13]] := rfl
  obtain ⟨results, trimmed, joined, lost⟩ := results_exact (pieces ++ later)
  rw [all] at results
  exact ⟨sound, plain, other, results, joined [] pieces later sound,
    lost [.chunk [65, 13, 10]] [.chunk [10, 13]] [66] 7 plain, (trimmed [66]).2 other⟩

end GolombSet.Lines
