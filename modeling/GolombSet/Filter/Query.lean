import GolombSet.Filter.Values
import GolombSet.Key

set_option autoImplicit false

namespace GolombSet

namespace RawFilter

def inspectOne (target value : UInt64) : Values.Verdict UInt64 :=
  -- Places come in increasing order, so the first one that is not below the target settles it.
  if value < target then .undecided target else .settled (value == target)

def containsHash (filter : RawFilter) (hash : UInt64) : Except FilterError Bool :=
  if filter.isEmpty then .ok false
  else filter.values.search inspectOne (reduce hash filter.range)

def contains (filter : RawFilter) (key : Key) (item : Bytes) : Except FilterError Bool :=
  filter.containsHash (itemHash key item)

def inspectMany (targets : List UInt64) (value : UInt64) : Values.Verdict (List UInt64) :=
  match targets.dropWhile (· < value) with
  | [] => .settled false
  | target :: rest => if target = value then .settled true else .undecided (target :: rest)

def containsAny (filter : RawFilter) (key : Key) (items : List Bytes) : Except FilterError Bool :=
  if filter.isEmpty || items.isEmpty then .ok false
  else
    let targets := (items.map (place key filter.range)).mergeSort
    filter.values.search inspectMany targets

end RawFilter

namespace Filter

def containsHash (filter : Filter) (hash : UInt64) : Except FilterError Bool :=
  filter.raw.containsHash hash

def contains (filter : Filter) (key : Key) (item : Bytes) : Except FilterError Bool :=
  filter.raw.contains key item

def containsAny (filter : Filter) (key : Key) (items : List Bytes) : Except FilterError Bool :=
  filter.raw.containsAny key items

end Filter

end GolombSet
