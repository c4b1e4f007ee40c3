import Gremlin.Number.Format

/-!
# Shortest decimals

Every finite magnitude of a binary format is the nearest one to each decimal of
some interval around it. This module selects the decimal of that interval with
the fewest significant digits, and of those the one nearest to the magnitude.

The interval ends halfway to the neighbouring magnitudes. Its ends belong to it
when the mantissa is even, since a decimal halfway between two magnitudes is
read as the one with the even mantissa.

Everything is measured in one exact whole number: four times the mantissa, times
the power of five or of two that turns the binary exponent into a decimal one.
-/

namespace Gremlin.Number

/-! ## Decimals -/

/-- The decimal number `coefficient * 10 ^ exponent`. -/
structure Decimal where
  coefficient : Nat
  exponent : Int
  deriving DecidableEq, Repr

/-- Which of two equally near decimals is chosen. -/
inductive Tie
  /-- The larger one. -/
  | up
  /-- The one with the even coefficient. -/
  | even
  deriving DecidableEq, Repr

/-! ## The interval of a magnitude -/

/-- The decimals that are read as one magnitude: those between `low` and `high`,
in powers of ten to the minus `places`; `value` is the magnitude itself. -/
structure Interval where
  low : Nat
  value : Nat
  high : Nat
  closed : Bool
  places : Nat

/-- The interval of a finite magnitude. -/
def Format.interval (f : Format) (w : Nat) : Interval :=
  let m := f.mantissa w
  let places := f.unitExponent + 2 - f.scale w
  let factor := Nat.pow 5 places * Nat.pow 2 (f.scale w - (f.unitExponent + 2))
  { low := (4 * m - if f.isBinadeStart w then 1 else 2) * factor
    value := 4 * m * factor
    high := (4 * m + 2) * factor
    closed := m % 2 == 0
    places := places }

namespace Interval

/-- Whether a point lies in the interval. -/
def contains (i : Interval) (point : Nat) : Bool :=
  if i.closed then i.low ≤ point && point ≤ i.high else i.low < point && point < i.high

/-- The point of the interval on the grid of multiples of `step` that is nearest
to the value, as a multiple of `step`. If the interval has a point of the grid at
all, then one of the two grid points around the value lies in it. -/
def pick? (i : Interval) (tie : Tie) (step : Nat) : Option Nat :=
  let below := i.value / step
  match i.contains (below * step), i.contains ((below + 1) * step) with
  | true, true =>
    let rest := 2 * (i.value % step)
    if rest < step then some below
    else if step < rest then some (below + 1)
    else match tie with
      | .up => some (below + 1)
      | .even => some (below + below % 2)
  | true, false => some below
  | false, true => some (below + 1)
  | false, false => none

/-- The nearest point on the coarsest grid of multiples of `10 ^ g` that has one,
for `g` from the given number down. On the finest grid the value itself is a
point. -/
def search (i : Interval) (tie : Tie) : Nat → Decimal
  | 0 => ⟨i.value, -i.places⟩
  | g + 1 =>
    match i.pick? tie (Nat.pow 10 (g + 1)) with
    | some coefficient => ⟨coefficient, (g + 1 : Nat) - i.places⟩
    | none => i.search tie g

/-- The shortest decimal of the interval: the search starts at the grid whose step
has more digits than the value. -/
def shortest (i : Interval) (tie : Tie) : Decimal :=
  i.search tie (Nat.toDigits 10 i.value).length

end Interval

/-- The shortest decimal of a finite magnitude. Zero is `0`. -/
def Format.shortest (f : Format) (tie : Tie) (w : Nat) : Decimal :=
  if w = 0 then ⟨0, 0⟩ else (f.interval w).shortest tie

end Gremlin.Number
