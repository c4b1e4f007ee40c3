import Gremlin.Number.Rounding

/-!
# Scaling by powers of ten

A quick way to turn a significand and a decimal exponent into a double: the
significand is rounded, then multiplied or divided by a rounded power of ten, and
the result is rounded again. It is exact for short decimals, and may end one step
away from the nearest double for long ones. Exponents below the smallest power are
reached by dividing several times.
-/

namespace Gremlin.Number

/-- The largest power of ten that is a finite double. -/
def largestPower : Nat := 308

/-- The double nearest to a power of ten. -/
def powerOfTen (n : Nat) : Nat := double.nearest (Nat.pow 10 n) 1

/-- Divides a magnitude by a power of ten, in steps that are finite doubles. -/
def divided (w n : Nat) : Nat :=
  if n ≤ largestPower then double.quotient w (powerOfTen n)
  else if w = 0 then 0
  else divided (double.quotient w (powerOfTen largestPower)) (n - largestPower)
termination_by n
decreasing_by
  have : largestPower = 308 := rfl
  omega

/-- The magnitude of a significand times a power of ten, unless it is infinite. -/
def scaled? (significand : Nat) (exponent : Int) : Option Nat :=
  let w := double.nearest significand 1
  match exponent with
  | .ofNat n =>
    if n ≤ largestPower then
      let product := double.product w (powerOfTen n)
      if product = double.infinity then none else some product
    else if w = 0 then some 0
    else none
  | .negSucc n => some (divided w (n + 1))

end Gremlin.Number
