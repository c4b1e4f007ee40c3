import Gremlin.Number.Format

/-!
# Rounding to a binary format

The finite magnitude nearest to a fraction, where a fraction halfway between two
goes to the one with the even mantissa. From half a step above the largest
finite magnitude on the answer is infinity.
-/

namespace Gremlin.Number

/-- The whole number nearest to `num / den`; a half goes to the even neighbour. -/
def roundHalfEven (num den : Nat) : Nat :=
  let floor := num / den
  let rest := num % den
  if 2 * rest < den then floor
  else if den < 2 * rest then floor + 1
  else floor + floor % 2

namespace Format

/-- The code of the magnitude nearest to `num / den`. The power of two is chosen
so that the whole part of the scaled fraction has as many binary digits as a
mantissa. A mantissa that rounds up to one digit more needs no care: the sum of
scale and mantissa then is the first code of the next binade. -/
def nearest (f : Format) (num den : Nat) : Nat :=
  let scaled := num * Nat.pow 2 f.unitExponent
  let power := (scaled / den).log2 - f.fractionBits
  min f.infinity (power * f.leadingBit + roundHalfEven scaled (den * Nat.pow 2 power))

/-- The code nearest to the product of two finite magnitudes. -/
def product (f : Format) (a b : Nat) : Nat :=
  f.nearest (f.units a * f.units b) (Nat.pow 2 f.unitExponent * Nat.pow 2 f.unitExponent)

/-- The code nearest to the quotient of two finite magnitudes. -/
def quotient (f : Format) (a b : Nat) : Nat :=
  f.nearest (f.units a) (f.units b)

end Format

/-! ## Lemmas -/

theorem roundHalfEven_le (num den : Nat) : roundHalfEven num den ≤ num / den + 1 := by
  unfold roundHalfEven
  have := Nat.mod_lt (num / den) Nat.two_pos
  dsimp only
  split
  · omega
  · split <;> omega

theorem le_roundHalfEven (num den : Nat) : num / den ≤ roundHalfEven num den := by
  unfold roundHalfEven
  dsimp only
  split
  · omega
  · split <;> omega

theorem Format.nearest_le_infinity (f : Format) (num den : Nat) :
    f.nearest num den ≤ f.infinity :=
  Nat.min_le_left _ _

example : double.nearest (Nat.pow 10 309) 1 = double.infinity := by decide +kernel

end Gremlin.Number
