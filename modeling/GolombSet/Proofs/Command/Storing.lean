import GolombSet.Proofs.Builder.FalsePositives
import GolombSet.Proofs.Builder.Runs
import GolombSet.Proofs.Command.Answers
import GolombSet.Proofs.Command.Building
import GolombSet.Proofs.Digest
import GolombSet.Proofs.Files
import GolombSet.Proofs.Filter.Wire

set_option autoImplicit false

namespace GolombSet

namespace Command

def Build.query (command : Build) (name key : String) (items : List String) : Query where
  filter := name
  key := key
  items := items
  wire := if command.wire then some command.p else none

variable {command : Build} {tree : FileTree} {name digits : String} {text : Bytes}
  {filter : Filter} {key : Key} {libraries : Libraries}

end Command

end GolombSet
