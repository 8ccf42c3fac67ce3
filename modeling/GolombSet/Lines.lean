import GolombSet.Bytes

set_option autoImplicit false

namespace GolombSet.Lines

inductive Delivery (Fault : Type) where
  | chunk (bytes : Bytes)
  -- A source that was interrupted can be asked again at once.
  | interrupted
  | failure (fault : Fault)
deriving DecidableEq

variable {Fault : Type}

def newline : UInt8 := 10

def carriageReturn : UInt8 := 13

def trimReturn (line : Bytes) : Bytes :=
  if line.getLast? = some carriageReturn then line.dropLast else line

/-- The start of the item is in `line`: a failure loses it, the end of the source does not. -/
def nextFrom (line : Bytes) :
    List (Delivery Fault) → Option (Except Fault Bytes) × List (Delivery Fault)
  | [] => (if line.isEmpty then none else some (.ok line), [])
  | .interrupted :: rest => nextFrom line rest
  | .failure fault :: rest => (some (.error fault), rest)
  | .chunk bytes :: rest =>
    match bytes.dropWhile (· ≠ newline) with
    | [] => nextFrom (line ++ bytes) rest
    | _ :: after =>
      (some (.ok (trimReturn (line ++ bytes.takeWhile (· ≠ newline)))), .chunk after :: rest)

def next (source : List (Delivery Fault)) :
    Option (Except Fault Bytes) × List (Delivery Fault) :=
  nextFrom [] source

def weight : List (Delivery Fault) → Nat
  | [] => 0
  | .chunk bytes :: rest => bytes.length + 1 + weight rest
  | .interrupted :: rest => 1 + weight rest
  | .failure _ :: rest => 1 + weight rest

theorem weight_nextFrom {line : Bytes} {source after : List (Delivery Fault)}
    {result : Except Fault Bytes} (step : nextFrom line source = (some result, after)) :
    weight after < weight source ∨ source = [] := by
  fun_induction nextFrom line source with
  | case1 line => simp
  | case2 line rest ih =>
    rcases ih step with smaller | rfl
    · simp [weight]; omega
    · simp [nextFrom] at step
      simp [weight, step.2]
  | case3 line fault rest =>
    simp at step
    simp [weight, ← step.2]
  | case4 line bytes rest none ih =>
    rcases ih step with smaller | rfl
    · simp [weight]; omega
    · simp [nextFrom] at step
      simp [weight, step.2]
  | case5 line bytes rest _ after' found =>
    simp at step
    have shorter := (bytes.dropWhile_sublist (· ≠ newline)).length_le
    rw [found] at shorter
    simp [weight, ← step.2] at shorter ⊢
    omega

theorem weight_next {source after : List (Delivery Fault)} {result : Except Fault Bytes}
    (step : next source = (some result, after)) : weight after < weight source := by
  rcases weight_nextFrom step with smaller | rfl
  · exact smaller
  · simp [next, nextFrom] at step

def toList (source : List (Delivery Fault)) : List (Except Fault Bytes) :=
  match _step : next source with
  | (none, _) => []
  | (some result, after) => result :: toList after
termination_by weight source
decreasing_by exact weight_next ‹_›

/-- All items, unless a failure comes before, between or after them. -/
def collect (source : List (Delivery Fault)) : Except Fault (List Bytes) :=
  (toList source).mapM id

end GolombSet.Lines
