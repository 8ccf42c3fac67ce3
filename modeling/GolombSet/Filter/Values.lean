import GolombSet.Filter.Basic
import GolombSet.Rice

set_option autoImplicit false

namespace GolombSet

structure Values where
  cursor : BitCursor
  p : UInt8
  remaining : Nat
  -- The last place, or zero before the first.
  last : UInt64
deriving DecidableEq

def RawFilter.values (filter : RawFilter) : Values where
  cursor := BitCursor.ofBytes filter.data
  p := filter.p
  remaining := filter.count.toNat
  last := 0

def Filter.values (filter : Filter) : Values :=
  filter.raw.values

namespace Values

def advance (last : UInt64) (gap : Except StreamError UInt64) : Except FilterError UInt64 :=
  match gap with
  | .error reason => .error (.ofStream reason)
  | .ok gap =>
    if last.toNat + gap.toNat < UInt64.size then .ok (last + gap) else .error .corruptStream

def next (values : Values) : Option (Except FilterError UInt64) × Values :=
  match values.remaining with
  | 0 => (none, values)
  | remaining + 1 =>
    let gap := values.cursor.readRice values.p.toNat
    match advance values.last gap.1 with
    | .ok value =>
      (some (.ok value), { values with cursor := gap.2, remaining := remaining, last := value })
    | .error reason => (some (.error reason), { values with cursor := gap.2, remaining := 0 })

theorem remaining_next {values after : Values} {result : Except FilterError UInt64}
    (step : values.next = (some result, after)) : after.remaining < values.remaining := by
  unfold next at step
  split at step
  · simp at step
  · dsimp only at step
    split at step <;> obtain ⟨-, rfl⟩ := Prod.mk.inj step <;> simp [*]

def sizeHint (values : Values) : Nat × Nat :=
  (0, values.remaining)

def take (limit : Nat) (values : Values) : List (Except FilterError UInt64) :=
  match limit with
  | 0 => []
  | limit + 1 =>
    match values.next with
    | (none, _) => []
    | (some result, after) => result :: after.take limit

def toList (values : Values) : List (Except FilterError UInt64) :=
  values.take values.remaining

inductive Verdict (State : Type) where
  | settled (answer : Bool)
  | undecided (state : State)

/-- An error counts only if no place before it settles the answer. -/
def search {State : Type} (inspect : State → UInt64 → Verdict State) (state : State)
    (values : Values) : Except FilterError Bool :=
  match _step : values.next with
  | (none, _) => .ok false
  | (some (.error reason), _) => .error reason
  | (some (.ok value), after) =>
    match inspect state value with
    | .settled answer => .ok answer
    | .undecided state => after.search inspect state
termination_by values.remaining
decreasing_by exact remaining_next ‹_›

end Values

end GolombSet
