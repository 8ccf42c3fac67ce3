import GolombSet.Lines

set_option autoImplicit false

namespace GolombSet.Lines

def terminated (text : Bytes) : List Bytes :=
  (text.splitOn newline).dropLast.map trimReturn

def unterminated (text : Bytes) : Bytes :=
  (text.splitOn newline).getLastD []

def split (text : Bytes) : List Bytes :=
  terminated text ++ if unterminated text = [] then [] else [unterminated text]

variable {Fault : Type} {front text : Bytes}

theorem ne_newline (plain : newline ∉ text) : ∀ byte ∈ text, byte ≠ newline := by
  rintro byte member rfl
  exact plain member

theorem terminated_append (front rest : Bytes) :
    terminated (front ++ newline :: rest) =
      (front.splitOn newline).map trimReturn ++ terminated rest := by
  obtain ⟨line, lines, parts⟩ := List.exists_cons_of_ne_nil (List.splitOn_ne_nil newline rest)
  simp [terminated, List.splitOn_append_cons_self, parts]

theorem unterminated_append (front rest : Bytes) :
    unterminated (front ++ newline :: rest) = unterminated rest := by
  obtain ⟨line, lines, parts⟩ := List.exists_cons_of_ne_nil (List.splitOn_ne_nil newline rest)
  simp [unterminated, List.splitOn_append_cons_self, parts, List.getLast?_cons]

theorem terminated_of_plain (plain : newline ∉ text) : terminated text = [] := by
  simp [terminated, List.splitOn_eq_singleton plain]

theorem unterminated_of_plain (plain : newline ∉ text) : unterminated text = text := by
  simp [unterminated, List.splitOn_eq_singleton plain]

theorem split_of_plain (plain : newline ∉ text) :
    split text = if text = [] then [] else [text] := by
  rw [split, terminated_of_plain plain, unterminated_of_plain plain, List.nil_append]

theorem terminated_append_plain (text : Bytes) {rest : Bytes} (plain : newline ∉ rest) :
    terminated (text ++ rest) = terminated text := by
  by_cases found : newline ∈ text
  · -- The last newline is the first from the end.
    obtain ⟨last, front, split, unbroken⟩ :=
      List.eq_append_cons_of_mem (List.mem_reverse.mpr found)
    have split : text = front.reverse ++ newline :: last.reverse := by
      simpa using congrArg List.reverse split
    rw [split, List.append_assoc, List.cons_append, terminated_append, terminated_append,
      terminated_of_plain (by simp [unbroken, plain]),
      terminated_of_plain (by simpa using unbroken)]
  · rw [terminated_of_plain (by simp [found, plain]), terminated_of_plain found]

theorem nextFrom_append (plain : newline ∉ front) (line rest : Bytes)
    (source : List (Delivery Fault)) :
    nextFrom line (.chunk (front ++ newline :: rest) :: source) =
      (some (.ok (trimReturn (line ++ front))), .chunk rest :: source) := by
  have others : ∀ byte ∈ front, decide (byte ≠ newline) = true := by
    simpa using ne_newline plain
  simp only [nextFrom, List.dropWhile_append_of_pos others, List.takeWhile_append_of_pos others]
  simp

theorem nextFrom_of_plain (plain : newline ∉ text) (line : Bytes)
    (source : List (Delivery Fault)) :
    nextFrom line (.chunk text :: source) = nextFrom (line ++ text) source := by
  have others : ∀ byte ∈ text, decide (byte ≠ newline) = true := by
    simpa using ne_newline plain
  have none : text.dropWhile (fun byte => decide (byte ≠ newline)) = [] := by
    rw [← List.append_nil text, List.dropWhile_append_of_pos others, List.dropWhile_nil]
  simp only [nextFrom, none]

theorem toList_of_next (source : List (Delivery Fault)) :
    toList source =
      match next source with
      | (none, _) => []
      | (some result, after) => result :: toList after := by
  rw [toList]
  split <;> next step => exact step ▸ rfl

end GolombSet.Lines
