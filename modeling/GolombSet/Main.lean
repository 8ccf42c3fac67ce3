import GolombSet.Command.Arguments
import GolombSet.Command.Run

set_option autoImplicit false

namespace GolombSet.Command

def fileErrorOf : IO.Error → FileError
  | .noFileOrDirectory .. => .notFound
  | .inappropriateType _ 20 _ => .notDirectory
  | .inappropriateType .. => .isDirectory
  | .invalidArgument _ 36 _ => .nameTooLong
  | .permissionDenied _ code details => .other s!"{details} (os error {code})"
  | reason => .other reason.toString

def readFile (name : String) : IO (Except FileError Bytes) := do
  try
    let handle ← IO.FS.Handle.mk name .read
    return .ok (← handle.readBinToEnd).data.toList
  catch reason => return .error (fileErrorOf reason)

def writeFile (name : String) (bytes : Bytes) : IO (Except FileError Unit) := do
  try
    IO.FS.writeBinFile name ⟨bytes.toArray⟩
    return .ok ()
  catch reason => return .error (fileErrorOf reason)

def randomKey : IO Key := do
  let bytes ← IO.getRandomBytes 16
  match Key.ofBytes? bytes.data.toList with
  | some key => return key
  | none => throw (IO.userError "The system gave too few random bytes")

def report (outcome : Outcome) : IO UInt32 := do
  IO.print outcome.output
  for notice in outcome.notices do
    IO.eprintln notice.line
  if let some failure := outcome.failure then
    IO.eprintln ("Error: " ++ failure.message)
  return outcome.status

def Plan.execute : Plan → IO Outcome
  | .done outcome => return outcome
  | .read name next => do (next (← readFile name)).execute
  | .write name bytes next => do (next (← writeFile name bytes)).execute

def main (libraries : Libraries) (arguments : List String) : IO UInt32 := do
  match Invocation.read arguments with
  | .run request => report (← (request.plan libraries (← randomKey)).execute)
  | .help topic =>
    IO.print topic.text
    return 0
  | .refused =>
    IO.eprint Topic.commands.text
    return 2

end GolombSet.Command
