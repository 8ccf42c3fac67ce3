import GolombSet.Proofs.Command.Storing
import GolombSet.Proofs.Digest

set_option autoImplicit false

namespace GolombSet

namespace Command

variable {command : Build} {tree : FileTree} {fresh key : Key} {name digits : String}
  {libraries : Libraries}

end Command

end GolombSet
