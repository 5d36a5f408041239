import Mathlib.Algebra.Ring.Int.Defs
import Mathlib.Algebra.Ring.Nat

/-!
# 64-bit integers

Go's `int` on the platforms the program runs on: arithmetic on `Int` that wraps
around to the signed 64-bit range.
-/

namespace WebChunk.Go

/-- The value that an `int` computation leaves. -/
def wrap (value : Int) : Int := value.bmod (2 ^ 64)

/-- The number is an `int`. -/
def InInt (n : Int) : Prop := -2 ^ 63 ≤ n ∧ n < 2 ^ 63

instance (n : Int) : Decidable (InInt n) := inferInstanceAs (Decidable (_ ∧ _))

/-- Nothing wraps inside the `int` range. -/
theorem wrap_of_fits {value : Int} (lower : -2 ^ 63 ≤ value) (upper : value < 2 ^ 63) :
    wrap value = value := by
  rw [wrap, Int.bmod_def]
  omega

/-- `x << n`; the bits that leave the `int` are lost. -/
def shiftLeft (x : Int) (n : Nat) : Int := if n < 64 then wrap (x * 2 ^ n) else 0

end WebChunk.Go
