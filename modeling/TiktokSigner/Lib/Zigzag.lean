import Mathlib.Algebra.Ring.Int.Defs
import Mathlib.Algebra.GroupWithZero.Nat

/-!
# Signed integers in words

Zigzag numbers the integers by alternating sign, `0, -1, 1, -2, ..`. On a
word it is undone by one shift and one `xor` with the sign.
-/

namespace Zigzag

/-- The integer with the number `n`. -/
def decode (n : Nat) : Int := if n % 2 = 0 then (n / 2 : Nat) else -((n + 1) / 2 : Nat)

end Zigzag
