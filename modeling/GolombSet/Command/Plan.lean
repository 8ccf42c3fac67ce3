import GolombSet.Command.Basic

set_option autoImplicit false

namespace GolombSet.Command

/-- What a command does with files: each step waits for the answer to the one before it. -/
inductive Plan where
  | done (outcome : Outcome)
  | read (name : String) (next : Except FileError Bytes → Plan)
  | write (name : String) (bytes : Bytes) (next : Except FileError Unit → Plan)

def Plan.run : Plan → FileTree → Outcome × FileTree
  | done outcome, tree => (outcome, tree)
  | read name next, tree => (next (tree.read name)).run tree
  | write name bytes next, tree =>
    match tree.write name bytes with
    | .ok after => (next (.ok ())).run after
    | .error reason => (next (.error reason)).run tree

end GolombSet.Command
