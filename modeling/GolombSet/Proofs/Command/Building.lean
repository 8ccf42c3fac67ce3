import GolombSet.Command.Run
import GolombSet.Proofs.Builder.Assembly
import GolombSet.Proofs.Lines.Segments

set_option autoImplicit false

namespace GolombSet.Command

variable {command : Build} {fresh key : Key} {libraries : Libraries} {tree : FileTree}

end GolombSet.Command
