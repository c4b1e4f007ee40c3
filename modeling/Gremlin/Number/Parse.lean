import Gremlin.Number.Shortest

/-!
# Reading decimals

The numeral of a decimal is digits, perhaps with a point among them, before them or behind
them, and perhaps an exponent at the end. There is at least one digit besides those of the
exponent, and nothing bounds how many there are: the decimal is exact.
-/

namespace Gremlin.Number

/-- The whole number of a text of digits. -/
def whole? (cs : List Char) : Option Nat :=
  if cs ≠ [] ∧ cs.all Char.isDigit then some (Nat.ofDigitChars 10 cs 0) else none

/-- The whole number of digits that may have a sign. -/
def signed? : List Char → Option Int
  | '-' :: cs => (whole? cs).map fun n => -n
  | '+' :: cs => (whole? cs).map fun n => n
  | cs => (whole? cs).map fun n => n

/-- The exponent that a numeral ends with: none is zero. -/
def exponent? : List Char → Option Int
  | [] => some 0
  | 'e' :: cs | 'E' :: cs => signed? cs
  | _ => none

/-- The digits behind a point, if there is one, and what follows them. -/
def splitFraction : List Char → List Char × List Char
  | '.' :: cs => (cs.takeWhile Char.isDigit, cs.dropWhile Char.isDigit)
  | cs => ([], cs)

/-- The decimal of a numeral without a sign. Its coefficient has all the digits, so that each
digit behind the point lowers the exponent by one. -/
def Decimal.parse? (cs : List Char) : Option Decimal :=
  let whole := cs.takeWhile Char.isDigit
  let (fraction, rest) := splitFraction (cs.dropWhile Char.isDigit)
  if whole = [] ∧ fraction = [] then none
  else (exponent? rest).map fun e =>
    ⟨Nat.ofDigitChars 10 (whole ++ fraction) 0, e - fraction.length⟩

end Gremlin.Number
