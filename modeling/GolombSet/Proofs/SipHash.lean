import GolombSet.Proofs.Bytes
import GolombSet.SipHash.Hasher

set_option autoImplicit false

namespace GolombSet.SipHash

namespace Hasher

-- The test vector that the authors of the function give.
example : ((ofKeys ⟨2, 4⟩ 0x0706050403020100 0x0f0e0d0c0b0a0908).digests
    [[0, 1, 2], [], [3, 4, 5, 6, 7, 8, 9, 10, 11, 12, 13], [14]]).getLast? =
      some 0xa129ca6149be45e5 := by
  decide +kernel

end Hasher

end GolombSet.SipHash
