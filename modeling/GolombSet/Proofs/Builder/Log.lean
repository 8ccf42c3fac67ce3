import GolombSet.Proofs.Builder.Runs
import GolombSet.Proofs.Filter.Size
import Mathlib.Data.List.Count

set_option autoImplicit false

namespace GolombSet

section

variable {A : Type} [DecidableEq A]

variable {le : A → A → Prop} (antisymm : ∀ a b, le a b → le b a → a = b)

include antisymm

end

namespace Builder

end Builder

end GolombSet
