import GolombSet.Digest
import GolombSet.Filter.Wire

set_option autoImplicit false

namespace GolombSet.Filter

def hash (filter : Filter) : Digest :=
  Digest.doubleSha256 filter.toCounted

def header (filter : Filter) (previous : Digest) : Digest :=
  Digest.doubleSha256 (filter.hash.bytes ++ previous.bytes)

def headers (start : Digest) : List Filter → List Digest
  | [] => []
  | filter :: filters =>
    let next := filter.header start
    next :: headers next filters

end GolombSet.Filter
