import GolombSet.Builder.Basic
import GolombSet.Filter.Encoding

set_option autoImplicit false

namespace GolombSet

def distinct {A : Type} [DecidableEq A] : List A → List A
  | [] => []
  | [a] => [a]
  | a :: b :: rest => if a = b then distinct (b :: rest) else a :: distinct (b :: rest)

def countRepeats {A : Type} [DecidableEq A] : List A → Nat
  | [] => 0
  | [_] => 0
  | a :: b :: rest => (if a = b then 1 else 0) + countRepeats (b :: rest)

def distinctItems (items : List Bytes) : List Bytes :=
  distinct (items.mergeSort fun a b => decide (a ≤ b))

inductive LogLevel where
  | debug
  | trace
deriving DecidableEq

def LogLevel.name : LogLevel → String
  | .debug => "DEBUG"
  | .trace => "TRACE"

inductive BuildEvent where
  | collisions (count entries : Nat)
  | built (items entries p bytes : Nat)
deriving DecidableEq

namespace BuildEvent

def level : BuildEvent → LogLevel
  | collisions .. => .trace
  | built .. => .debug

def message : BuildEvent → String
  | collisions count entries => s!"{count} hash collisions among {entries} entries"
  | built items entries p bytes =>
    s!"Built filter with {items} entries ({entries} distinct), p = {p}, {bytes} bytes"

def line (event : BuildEvent) : String :=
  let level := event.level.name
  let message := event.message
  s!"{level}: {message}"

end BuildEvent

structure Built where
  filter : Filter
  log : List BuildEvent
deriving DecidableEq

namespace Builder

def assemble (builder : Builder) (key : Key) : Except FilterError Built :=
  let entries := distinctItems builder.items.toList
  if entries.length < UInt32.size then
    let count := UInt32.ofNat entries.length
    let values := (entries.map (place key (builder.parameter.range count))).mergeSort
    let filter := Filter.ofSorted count builder.parameter values
    let collisions := countRepeats values
    let built := BuildEvent.built builder.length entries.length builder.parameter.toNat
      filter.data.length
    .ok {
      filter := filter
      log := if collisions = 0 then [built]
        else [.collisions collisions entries.length, built] }
  else .error (.tooManyEntries entries.length)

def build (builder : Builder) (fresh : Key) : Except FilterError Built × Builder :=
  match builder.resolveKey fresh with
  | (.error reason, after) => (.error reason, after)
  | (.ok key, after) => (after.assemble key, after)

end Builder

end GolombSet
