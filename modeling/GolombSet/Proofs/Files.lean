import GolombSet.Files

set_option autoImplicit false

namespace GolombSet.FileTree

variable {tree after : FileTree} {location next : Location} {name part : String} {bytes : Bytes}

end GolombSet.FileTree
