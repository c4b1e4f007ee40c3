/-!
# Binary interchange formats

A binary format stores a sign, an exponent field and a fraction. All finite
magnitudes of a format are whole multiples of one unit, two to the minus
`unitExponent`: the magnitude code `w` (the bits below the sign, read as a number)
stands for `mantissa w` times two to the `scale w` units, and larger codes stand for
larger magnitudes.

Results:
1. `mantissa_lt`: a mantissa has at most one binary digit more than the fraction.
2. `code_eq`: a code is recovered from its mantissa and scale.
-/

namespace Gremlin.Number

/-! ## Definitions -/

/-- The widths of the two fields below the sign bit. -/
structure Format where
  fractionBits : Nat
  exponentBits : Nat
  deriving DecidableEq, Repr

/-- The format of 64 bits. -/
def double : Format := ⟨52, 11⟩

/-- The format of 32 bits. -/
def single : Format := ⟨23, 8⟩

namespace Format

/-- The least number that the bits below the sign cannot hold. -/
def codes (f : Format) : Nat := Nat.pow 2 (f.fractionBits + f.exponentBits)

/-- The bit in front of the fraction, which is not stored. -/
def leadingBit (f : Format) : Nat := Nat.pow 2 f.fractionBits

/-- The code of infinity: every smaller code is finite, every larger one is not
a number. -/
def infinity (f : Format) : Nat := (Nat.pow 2 f.exponentBits - 1) * f.leadingBit

/-- The unit of the format is two to the minus this. -/
def unitExponent (f : Format) : Nat := Nat.pow 2 (f.exponentBits - 1) - 2 + f.fractionBits

/-- The significant digits of a finite code, as a whole number. The leading bit is
set unless the exponent field is zero. -/
def mantissa (f : Format) (w : Nat) : Nat :=
  if w / f.leadingBit = 0 then w else w % f.leadingBit + f.leadingBit

/-- By which power of two the mantissa is multiplied to give units. -/
def scale (f : Format) (w : Nat) : Nat := w / f.leadingBit - 1

/-- The magnitude of a finite code in units. -/
def units (f : Format) (w : Nat) : Nat := f.mantissa w * Nat.pow 2 (f.scale w)

/-- Whether the next code below is only half as far away as the next one above. -/
def isBinadeStart (f : Format) (w : Nat) : Bool :=
  w % f.leadingBit == 0 && 0 < f.scale w

/-! ## Lemmas -/

theorem leadingBit_pos (f : Format) : 0 < f.leadingBit := Nat.two_pow_pos _

theorem mantissa_lt (f : Format) (w : Nat) : f.mantissa w < 2 * f.leadingBit := by
  have pos := f.leadingBit_pos
  have low := Nat.mod_lt w pos
  unfold mantissa
  split
  · next zero =>
    have := (Nat.div_eq_zero_iff_lt pos).1 zero
    omega
  · omega

theorem code_eq (f : Format) (w : Nat) : w = f.scale w * f.leadingBit + f.mantissa w := by
  have split_w := Nat.div_add_mod w f.leadingBit
  unfold mantissa scale
  split
  · next zero => simp [zero]
  · next nonzero =>
    obtain ⟨k, hk⟩ := Nat.exists_eq_succ_of_ne_zero nonzero
    rw [hk] at split_w ⊢
    rw [Nat.mul_comm, Nat.succ_mul] at split_w
    simp only [Nat.succ_eq_add_one, Nat.add_sub_cancel]
    omega

end Format

end Gremlin.Number
