import Mathlib.Algebra.Group.Int.Defs
import Mathlib.Algebra.Group.Nat.Defs

/-!
# Types that the C++ runtime shares
-/

namespace Etch.Cpp

/-- The results of type `status_t`. -/
inductive Status where
  | ETCH_OK
  | ETCH_ERROR
  | ETCH_EINVAL
  | ETCH_ERANGE
  | ETCH_ENO_MEMORY
  | ETCH_TIMEOUT
deriving DecidableEq

/-- The sum of two numbers of type `uint32_t`. -/
def uint32Add (left right : Nat) : Nat :=
  (left + right) % 2 ^ 32

end Etch.Cpp
