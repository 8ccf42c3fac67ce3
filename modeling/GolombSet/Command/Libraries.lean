import GolombSet.Files
import GolombSet.Filter.Basic
import GolombSet.Lines

set_option autoImplicit false

namespace GolombSet.Command

/-- What commands leave to others: compressed files and the private form of filters. -/
structure Libraries where
  gunzip : List (Lines.Delivery FileError) → List (Lines.Delivery FileError)
  unzstd : List (Lines.Delivery FileError) → Except FileError (List (Lines.Delivery FileError))
  store : RawFilter → Bytes
  load : Except FileError Bytes → Except String RawFilter
  -- Why a filter could not be stored.
  refusal : FileError → String
  memory : RawFilter → Nat

namespace Libraries

def openItems (libraries : Libraries) (name : String) (file : Except FileError Bytes) :
    Except FileError (List (Lines.Delivery FileError)) := do
  let source ←
    match file with
    | .ok bytes => .ok [.chunk bytes]
    -- A directory can be opened, but not read.
    | .error .isDirectory => .ok [.failure .isDirectory]
    | .error reason => .error reason
  match FileName.extension? name with
  | some "gz" => .ok (libraries.gunzip source)
  | some "zst" => libraries.unzstd source
  | _ => .ok source

end Libraries

end GolombSet.Command
