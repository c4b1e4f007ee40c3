import Gremlin.Number.Layout
import Gremlin.Number.Rounding

/-!
# Floating point numbers

A double is the 64 bits of its binary form. It is compared as a number: not-a-number
differs from everything, itself included, and the two zeros are equal.
-/

namespace Gremlin

open Number (Format Decimal Layout)

/-- A number in the binary format of 64 bits. -/
structure Double where
  bits : UInt64
  deriving DecidableEq, Repr

namespace Double

/-! ## Sign and magnitude -/

/-- Whether the sign bit is set. -/
def isNegative (d : Double) : Bool := Number.double.codes ≤ d.bits.toNat

/-- The bits below the sign. -/
def magnitude (d : Double) : Nat := d.bits.toNat % Number.double.codes

/-- The double of a sign and a magnitude. -/
def ofMagnitude (negative : Bool) (w : Nat) : Double :=
  ⟨UInt64.ofNat (if negative then Number.double.codes + w else w)⟩

/-- Whether the bits stand for no number. -/
def isNaN (d : Double) : Bool := Number.double.infinity < d.magnitude

/-- Whether the magnitude is infinite. -/
def isInfinite (d : Double) : Bool := d.magnitude == Number.double.infinity

/-- Whether the bits stand for a number other than the infinities. -/
def isFinite (d : Double) : Bool := d.magnitude < Number.double.infinity

/-- Equality of numbers. -/
def equal (a b : Double) : Bool :=
  !a.isNaN && !b.isNaN && (a.bits == b.bits || (a.magnitude == 0 && b.magnitude == 0))

instance : BEq Double := ⟨equal⟩

/-- A double that stands for no number. -/
def nan : Double := ofMagnitude false (Number.double.infinity + 0x8000000000000)

/-! ## Conversion -/

/-- The double nearest to a whole number. -/
def ofInt (n : Int) : Double :=
  ofMagnitude (n < 0) (Number.double.nearest n.natAbs 1)

/-- The magnitude nearest to a decimal. -/
def magnitudeOfDecimal (d : Decimal) : Nat :=
  match d.exponent with
  | .ofNat n => Number.double.nearest (d.coefficient * Nat.pow 10 n) 1
  | .negSucc n => Number.double.nearest d.coefficient (Nat.pow 10 (n + 1))

/-! ## Text -/

/-- The text of a finite double: a sign, and the shortest decimal of the magnitude. -/
def finiteText (layout : Layout) (d : Double) : List Char :=
  (if d.isNegative then ['-'] else []) ++
    layout.write (Number.double.shortest layout.tie d.magnitude)

/-- The text in a statement. -/
def text (d : Double) : String :=
  if d.isNaN then "Double.NaN"
  else if d.isInfinite then
    if d.isNegative then "Double.NEGATIVE_INFINITY" else "Double.POSITIVE_INFINITY"
  else String.ofList (finiteText .plain d)

/-- The text in JSON, which has no form for what is not finite. -/
def json (d : Double) : String :=
  if d.isFinite then String.ofList (finiteText .json d) else "null"

end Double

end Gremlin
