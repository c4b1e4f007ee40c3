import Gremlin.Double
import Gremlin.Number.Parse

/-!
# Floating point numbers of 32 bits

A number of 32 bits is turned into a double by way of its own text: the shortest decimal of
the number is read as the nearest double, so that one tenth stays one tenth instead of
becoming the longer decimal that the coarser format stores. Only a text that cannot be read
would make the conversion fall back on the double of the same magnitude.
-/

namespace Gremlin

open Number (Decimal Layout)

/-- A number in the binary format of 32 bits. -/
structure Single where
  bits : UInt32
  deriving DecidableEq, Repr

namespace Single

/-- Whether the sign bit is set. -/
def isNegative (s : Single) : Bool := Number.single.codes ≤ s.bits.toNat

/-- The bits below the sign. -/
def magnitude (s : Single) : Nat := s.bits.toNat % Number.single.codes

/-- Whether the bits stand for no number. -/
def isNaN (s : Single) : Bool := Number.single.infinity < s.magnitude

/-- Whether the magnitude is infinite. -/
def isInfinite (s : Single) : Bool := s.magnitude == Number.single.infinity

/-- Whether the bits stand for a number other than the infinities. -/
def isFinite (s : Single) : Bool := s.magnitude < Number.single.infinity

/-- The text of a finite number: a sign, and the shortest decimal of the magnitude. -/
def finiteText (s : Single) : List Char :=
  (if s.isNegative then ['-'] else []) ++
    Layout.plain.write (Number.single.shortest Layout.plain.tie s.magnitude)

/-- The text of the number. -/
def text (s : Single) : String :=
  if s.isNaN then "NaN"
  else if s.isInfinite then if s.isNegative then "-inf" else "inf"
  else String.ofList s.finiteText

/-- The double of the same magnitude, which has room for all digits. -/
def widen (s : Single) : Double :=
  if s.isNaN then .nan
  else if s.isInfinite then .ofMagnitude s.isNegative Number.double.infinity
  else .ofMagnitude s.isNegative
    (Number.double.nearest (Number.single.units s.magnitude) (Nat.pow 2 Number.single.unitExponent))

end Single

namespace Double

/-! ## Reading -/

/-- The double of a word, in letters of either case. -/
def ofWord? (negative : Bool) (cs : List Char) : Option Double :=
  let word := String.ofList (cs.map Char.toLower)
  if word = "inf" ∨ word = "infinity" then some (ofMagnitude negative Number.double.infinity)
  else if word = "nan" then some (ofMagnitude negative nan.magnitude)
  else none

/-- The double of a numeral or a word behind its sign. A numeral is read as the double that it
is nearest to. -/
def parseUnsigned? (negative : Bool) (cs : List Char) : Option Double :=
  match Decimal.parse? cs with
  | some d => some (ofMagnitude negative (magnitudeOfDecimal d))
  | none => ofWord? negative cs

/-- The double of a text. -/
def parse? (text : String) : Option Double :=
  match text.toList with
  | '-' :: cs => parseUnsigned? true cs
  | '+' :: cs => parseUnsigned? false cs
  | cs => parseUnsigned? false cs

/-- The double nearest to the shortest decimal of a number of 32 bits. -/
def ofSingle (s : Single) : Double := (parse? s.text).getD s.widen

end Double

end Gremlin
