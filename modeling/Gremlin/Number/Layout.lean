import Gremlin.Number.Shortest

/-!
# Layouts of decimals

A layout decides how the digits of a decimal become text: where positional
notation ends and exponents begin, whether a whole number is marked as a
fraction, and which way the digits are rounded when two are equally near.
-/

namespace Gremlin.Number

/-! ## Definitions -/

/-- The decisions of a number format. -/
structure Layout where
  /-- Whether a decimal whose point stands after this many of its digits is
  written positionally; zero and below count the zeros after the point. -/
  positional : Int → Bool
  /-- What follows a whole number in positional notation. -/
  wholeMark : List Char
  /-- Which of two equally near decimals is written. -/
  tie : Tie

/-- The digits of a whole number. -/
def digits (n : Nat) : List Char := Nat.toDigits 10 n

/-- A number of zeros. -/
def zeros (n : Nat) : List Char := List.replicate n '0'

/-- A signed exponent: a plus sign is written too. -/
def exponentText : Int → List Char
  | .ofNat n => '+' :: digits n
  | .negSucc n => '-' :: digits (n + 1)

namespace Layout

/-- Positional notation. -/
def positionalText (l : Layout) (ds : List Char) : Int → List Char
  | .ofNat n => ds ++ zeros n ++ l.wholeMark
  | .negSucc n =>
    if n + 1 < ds.length then
      ds.take (ds.length - (n + 1)) ++ '.' :: ds.drop (ds.length - (n + 1))
    else '0' :: '.' :: (zeros (n + 1 - ds.length) ++ ds)

/-- One digit, the others after a point, and the exponent of the first digit. -/
def scientificText (ds : List Char) (exponent : Int) : List Char :=
  match ds with
  | [] => []
  | [d] => d :: 'e' :: exponentText exponent
  | d :: rest => d :: '.' :: (rest ++ 'e' :: exponentText (exponent + rest.length))

/-- The text of a decimal. -/
def write (l : Layout) (d : Decimal) : List Char :=
  let ds := digits d.coefficient
  if l.positional (ds.length + d.exponent) then l.positionalText ds d.exponent
  else scientificText ds d.exponent

end Layout

/-! ## Two layouts -/

/-- Numbers in statements are always positional, and a whole number has no mark. -/
def Layout.plain : Layout := ⟨fun _ => true, [], .up⟩

/-- Numbers in JSON are positional from `1e-5` up to below `1e16`, and a whole
number ends in `.0`. -/
def Layout.json : Layout := ⟨fun point => -5 < point && point ≤ 16, ['.', '0'], .even⟩

end Gremlin.Number
