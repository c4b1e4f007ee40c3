import Gremlin.Double
import Mathlib.Algebra.Order.Field.Rat
import Mathlib.Order.Monotone.Basic
import Mathlib.Tactic.FieldSimp
import Mathlib.Tactic.Linarith
import Mathlib.Tactic.Positivity
import Mathlib.Tactic.Ring

/-!
# The nearest magnitude

Rounding without an algorithm: a number is rounded to the code whose magnitude is at the
least distance from it, and halfway between two neighbours to the even one. The code of
infinity takes part as if the next larger magnitude stood there, so that a number is
rounded to infinity from half a step above the largest finite magnitude on.

Results:
1. `rounds_iff`: what is rounded to a magnitude reaches halfway to its two neighbours.
2. `Rounds.le_of_le`, `Rounds.unique`: rounding keeps the order, and gives one magnitude.
3. `rounds_nearest`, `rounds_magnitudeOfDecimal`: the functions that round find the nearest
   magnitude.
-/

namespace Gremlin.Number

/-! ## Definitions -/

/-- The number that a decimal stands for. -/
def Decimal.value (d : Decimal) : ℚ := d.coefficient * 10 ^ d.exponent

theorem Decimal.value_ofNat (c n : Nat) :
    (Decimal.mk c (.ofNat n)).value = ((c * 10 ^ n : Nat) : ℚ) := by
  simp [Decimal.value]

theorem Decimal.value_negSucc (c n : Nat) :
    (Decimal.mk c (.negSucc n)).value = (c : ℚ) / ((10 ^ (n + 1) : Nat) : ℚ) := by
  simp [Decimal.value, div_eq_mul_inv]

namespace Format

/-- The magnitude of a code. The code of infinity stands where the next larger magnitude
would be. -/
def value (f : Format) (w : Nat) : ℚ := f.units w / 2 ^ f.unitExponent

/-- The number halfway to the next larger magnitude. -/
def midpoint (f : Format) (w : Nat) : ℚ := (f.value w + f.value (w + 1)) / 2

/-- No magnitude is nearer to `x` than that of the code `w`, and if another one is equally
near, then `w` is even. -/
structure Rounds (f : Format) (x : ℚ) (w : Nat) : Prop where
  known : w ≤ f.infinity
  closest : ∀ v ≤ f.infinity, |x - f.value w| ≤ |x - f.value v|
  even : ∀ v ≤ f.infinity, v ≠ w → |x - f.value v| = |x - f.value w| → w % 2 = 0

variable {f : Format}

/-! ## Codes and units -/

theorem leadingBit_le_mantissa {w : Nat} (positive : 0 < f.scale w) :
    f.leadingBit ≤ f.mantissa w := by
  unfold mantissa
  have nonzero : w / f.leadingBit ≠ 0 := by
    unfold scale at positive
    omega
  rw [if_neg nonzero]
  exact Nat.le_add_left _ _

/-- A code that is put together of a power of two and a mantissa. The mantissa may have one
digit too many, if its digits are all zero but the first. -/
theorem units_of_parts {p m : Nat} (normal : 0 < p → f.leadingBit ≤ m)
    (upper : m ≤ 2 * f.leadingBit) : f.units (p * f.leadingBit + m) = m * 2 ^ p := by
  have pos := f.leadingBit_pos
  unfold units mantissa scale
  rcases Nat.lt_or_ge m f.leadingBit with small | large
  · obtain rfl : p = 0 := by
      by_contra nonzero
      exact absurd (normal (Nat.pos_of_ne_zero nonzero)) (Nat.not_le_of_lt small)
    simp [Nat.div_eq_of_lt small]
  · obtain ⟨k, rfl⟩ := Nat.exists_eq_add_of_le large
    have code : p * f.leadingBit + (f.leadingBit + k) = k + f.leadingBit * (p + 1) := by ring
    rw [code, Nat.add_mul_div_left _ _ pos, Nat.add_mul_mod_self_left]
    rcases Nat.lt_or_ge k f.leadingBit with less | more
    · simp [Nat.div_eq_of_lt less, Nat.mod_eq_of_lt less, Nat.add_comm]
    · obtain rfl : k = f.leadingBit := by omega
      rw [Nat.div_self pos, Nat.mod_self]
      simp only [show 1 + (p + 1) ≠ 0 by omega, if_false]
      have power : 1 + (p + 1) - 1 = p + 1 := by omega
      rw [power, Nat.pow_eq]
      ring

theorem le_scale_of_parts {p m : Nat} (normal : 0 < p → f.leadingBit ≤ m) :
    p ≤ f.scale (p * f.leadingBit + m) := by
  rcases Nat.eq_zero_or_pos p with rfl | positive
  · exact Nat.zero_le _
  · have := (Nat.le_div_iff_mul_le f.leadingBit_pos).2
      (show (p + 1) * f.leadingBit ≤ p * f.leadingBit + m by
        rw [Nat.succ_mul]; exact Nat.add_le_add_left (normal positive) _)
    unfold scale
    omega

theorem units_succ (w : Nat) : f.units (w + 1) = f.units w + 2 ^ f.scale w := by
  have code : w + 1 = f.scale w * f.leadingBit + (f.mantissa w + 1) := by
    have := f.code_eq w
    omega
  rw [code, units_of_parts, units, Nat.pow_eq, Nat.succ_mul]
  · intro positive
    exact Nat.le_succ_of_le (leadingBit_le_mantissa positive)
  · exact f.mantissa_lt w

theorem units_strictMono : StrictMono f.units :=
  strictMono_nat_of_lt_succ fun w => by
    rw [units_succ]
    exact Nat.lt_add_of_pos_right (Nat.two_pow_pos _)

theorem unit_pos (f : Format) : (0 : ℚ) < ((2 ^ f.unitExponent : Nat) : ℚ) :=
  Nat.cast_pos.2 (Nat.two_pow_pos _)

theorem value_eq_div (w : Nat) :
    f.value w = (f.units w : ℚ) / ((2 ^ f.unitExponent : Nat) : ℚ) := by
  rw [Nat.cast_pow, Nat.cast_ofNat]
  rfl

/-- A magnitude that is a whole number. -/
theorem value_of_units {w n : Nat} (units : f.units w = n * 2 ^ f.unitExponent) :
    f.value w = n := by
  rw [value_eq_div, units, Nat.cast_mul, mul_div_cancel_right₀ _ f.unit_pos.ne']

theorem value_strictMono : StrictMono f.value := fun v w less => by
  have units : (f.units v : ℚ) < f.units w := by exact_mod_cast units_strictMono less
  unfold value
  gcongr

theorem value_zero (f : Format) : f.value 0 = 0 := by
  simp [value, units, mantissa]

theorem value_nonneg (w : Nat) : 0 ≤ f.value w :=
  f.value_zero ▸ value_strictMono.monotone (Nat.zero_le w)

theorem value_pos {w : Nat} (nonzero : w ≠ 0) : 0 < f.value w :=
  f.value_zero ▸ value_strictMono (Nat.pos_of_ne_zero nonzero)

theorem midpoint_strictMono : StrictMono f.midpoint := fun v w less => by
  have low := value_strictMono (f := f) less
  have high := value_strictMono (f := f) (Nat.succ_lt_succ less)
  unfold midpoint
  simp only [Nat.succ_eq_add_one] at high
  linarith

theorem value_lt_midpoint (w : Nat) : f.value w < f.midpoint w := by
  have := value_strictMono (f := f) (Nat.lt_succ_self w)
  unfold midpoint
  simp only [Nat.succ_eq_add_one] at this
  linarith

theorem midpoint_lt_value (w : Nat) : f.midpoint w < f.value (w + 1) := by
  have := value_strictMono (f := f) (Nat.lt_succ_self w)
  unfold midpoint
  simp only [Nat.succ_eq_add_one] at this
  linarith

theorem leadingBit_even (wide : 0 < f.fractionBits) : f.leadingBit % 2 = 0 := by
  obtain ⟨k, bits⟩ := Nat.exists_eq_succ_of_ne_zero (Nat.ne_of_gt wide)
  rw [leadingBit, bits, Nat.pow_eq, Nat.pow_succ]
  omega

/-! ## Between midpoints -/

theorem nearer_iff {x a b : ℚ} (less : a < b) : |x - a| ≤ |x - b| ↔ x ≤ (a + b) / 2 := by
  rw [← sq_le_sq]
  constructor
  · intro nearer
    nlinarith
  · intro below
    nlinarith

theorem nearer_iff' {x a b : ℚ} (less : a < b) : |x - b| ≤ |x - a| ↔ (a + b) / 2 ≤ x := by
  rw [← sq_le_sq]
  constructor
  · intro nearer
    nlinarith
  · intro above
    nlinarith

/-- Magnitudes that are not neighbours have their middle behind the midpoint of one. -/
theorem midpoint_le_middle {v w : Nat} (less : w < v) :
    f.midpoint w ≤ (f.value w + f.value v) / 2 := by
  have := (value_strictMono (f := f)).monotone (Nat.succ_le_of_lt less)
  unfold midpoint
  simp only [Nat.succ_eq_add_one] at this
  linarith

theorem middle_le_midpoint {v k : Nat} (less : v < k + 1) :
    (f.value v + f.value (k + 1)) / 2 ≤ f.midpoint k := by
  have := (value_strictMono (f := f)).monotone (Nat.le_of_lt_succ less)
  unfold midpoint
  linarith

/-- Rounding in terms of the two midpoints around a magnitude. -/
theorem rounds_iff {x : ℚ} {w : Nat} : f.Rounds x w ↔ w ≤ f.infinity ∧
    (w < f.infinity → x ≤ f.midpoint w ∧ (x = f.midpoint w → w % 2 = 0)) ∧
    ∀ k, k + 1 = w → f.midpoint k ≤ x ∧ (x = f.midpoint k → w % 2 = 0) := by
  constructor
  · rintro ⟨known, closest, even⟩
    refine ⟨known, fun finite => ?_, ?_⟩
    · have less := value_strictMono (f := f) (Nat.lt_succ_self w)
      have below := (nearer_iff less).1 (closest (w + 1) finite)
      refine ⟨below, fun tie => even (w + 1) finite (Nat.succ_ne_self w) ?_⟩
      exact le_antisymm ((nearer_iff' less).2 tie.ge) (closest (w + 1) finite)
    · rintro k rfl
      have less := value_strictMono (f := f) (Nat.lt_succ_self k)
      have above := (nearer_iff' less).1 (closest k (Nat.le_of_lt known))
      refine ⟨above, fun tie => even k (Nat.le_of_lt known) (Nat.succ_ne_self k).symm ?_⟩
      exact le_antisymm ((nearer_iff less).2 tie.le) (closest k (Nat.le_of_lt known))
  · rintro ⟨known, upper, lower⟩
    refine ⟨known, fun v inside => ?_, fun v inside other tie => ?_⟩
    · rcases Nat.lt_trichotomy v w with less | rfl | more
      · obtain ⟨k, rfl⟩ := Nat.exists_eq_succ_of_ne_zero (Nat.ne_zero_of_lt less)
        exact (nearer_iff' (value_strictMono less)).2
          ((middle_le_midpoint less).trans (lower k rfl).1)
      · exact le_rfl
      · exact (nearer_iff (value_strictMono more)).2
          ((upper (Nat.lt_of_lt_of_le more inside)).1.trans (midpoint_le_middle more))
    · rcases Nat.lt_or_gt_of_ne other with less | more
      · obtain ⟨k, rfl⟩ := Nat.exists_eq_succ_of_ne_zero (Nat.ne_zero_of_lt less)
        have touching := (nearer_iff (value_strictMono less)).1 tie.le
        exact (lower k rfl).2
          (le_antisymm (touching.trans (middle_le_midpoint less)) (lower k rfl).1)
      · have finite := Nat.lt_of_lt_of_le more inside
        have touching := (nearer_iff' (value_strictMono more)).1 tie.le
        exact (upper finite).2
          (le_antisymm (upper finite).1 ((midpoint_le_middle more).trans touching))

namespace Rounds

variable {x y z : ℚ} {v w : Nat}

theorem le_midpoint (rounds : f.Rounds x w) (finite : w < f.infinity) : x ≤ f.midpoint w :=
  ((rounds_iff.1 rounds).2.1 finite).1

theorem midpoint_le (rounds : f.Rounds x (w + 1)) : f.midpoint w ≤ x :=
  ((rounds_iff.1 rounds).2.2 w rfl).1

/-- Larger numbers are not rounded to smaller magnitudes. -/
theorem le_of_le (left : f.Rounds x v) (right : f.Rounds y w) (le : x ≤ y) : v ≤ w := by
  by_contra above
  obtain ⟨k, rfl⟩ := Nat.exists_eq_succ_of_ne_zero (Nat.ne_zero_of_lt (Nat.lt_of_not_le above))
  have within : w ≤ k := Nat.le_of_lt_succ (Nat.lt_of_not_le above)
  have finite : w < f.infinity := Nat.lt_of_lt_of_le (Nat.lt_of_not_le above) left.known
  have low := left.midpoint_le
  have high := right.le_midpoint finite
  -- Both numbers are the midpoint between two neighbours, of which only one is even.
  obtain rfl : w = k := by
    by_contra apart
    have := midpoint_strictMono (f := f) (Nat.lt_of_le_of_ne within apart)
    linarith
  have odd := ((rounds_iff.1 left).2.2 w rfl).2 (le_antisymm (le.trans high) low)
  have even := ((rounds_iff.1 right).2.1 finite).2 (le_antisymm high (low.trans le))
  omega

/-- A number is rounded to one magnitude. -/
theorem unique (left : f.Rounds x v) (right : f.Rounds x w) : v = w :=
  Nat.le_antisymm (left.le_of_le right le_rfl) (right.le_of_le left le_rfl)

/-- What is rounded to one magnitude has no holes. -/
theorem between (low : f.Rounds x w) (high : f.Rounds z w) (le : x ≤ y) (le' : y ≤ z) :
    f.Rounds y w := by
  obtain ⟨known, -, lower⟩ := rounds_iff.1 low
  obtain ⟨-, upper, -⟩ := rounds_iff.1 high
  refine rounds_iff.2 ⟨known, fun finite => ?_, fun k same => ?_⟩
  · obtain ⟨below, even⟩ := upper finite
    exact ⟨le'.trans below, fun tie => even (le_antisymm below (tie ▸ le'))⟩
  · obtain ⟨above, even⟩ := lower k same
    exact ⟨above.trans le, fun tie => even (le_antisymm (tie ▸ le) above)⟩

end Rounds

theorem rounds_value {w : Nat} (known : w ≤ f.infinity) : f.Rounds (f.value w) w := by
  refine rounds_iff.2 ⟨known, fun _ => ?_, ?_⟩
  · exact ⟨(value_lt_midpoint w).le, fun tie => absurd tie (value_lt_midpoint w).ne⟩
  · rintro k rfl
    exact ⟨(midpoint_lt_value k).le, fun tie => absurd tie (midpoint_lt_value k).ne'⟩

end Format

/-! ## The rounding function -/

theorem roundHalfEven_spec {n q : Nat} (pos : 0 < q) :
    2 * n ≤ (2 * roundHalfEven n q + 1) * q ∧
    2 * roundHalfEven n q * q ≤ 2 * n + q ∧
    (2 * n = (2 * roundHalfEven n q + 1) * q ∨ 2 * roundHalfEven n q * q = 2 * n + q →
      roundHalfEven n q % 2 = 0) := by
  have split_n := Nat.div_add_mod n q
  have small := Nat.mod_lt n pos
  unfold roundHalfEven
  dsimp only
  generalize n / q = d at split_n ⊢
  generalize n % q = r at split_n small ⊢
  subst split_n
  split
  · exact ⟨by nlinarith, by nlinarith, by rintro (tie | tie) <;> nlinarith⟩
  · split
    · exact ⟨by nlinarith, by nlinarith, by rintro (tie | tie) <;> nlinarith⟩
    · obtain rfl : q = 2 * r := by omega
      rcases Nat.mod_two_eq_zero_or_one d with even | odd
      · rw [even]
        exact ⟨by nlinarith, by nlinarith, fun _ => even⟩
      · rw [odd]
        exact ⟨by nlinarith, by nlinarith, fun _ => by omega⟩

namespace Format

variable {f : Format}

/-- The power of two that is chosen makes the scaled number fit a mantissa. -/
theorem power_fits {n den : Nat} (pos : 0 < den) :
    let power := (n / den).log2 - f.fractionBits
    (0 < power → f.leadingBit * (den * 2 ^ power) ≤ n) ∧
      roundHalfEven n (den * 2 ^ power) ≤ 2 * f.leadingBit := by
  intro power
  have bit : f.leadingBit = 2 ^ f.fractionBits := rfl
  have split : n / (den * 2 ^ power) = n / den / 2 ^ power := (Nat.div_div_eq_div_mul _ _ _).symm
  constructor
  · intro positive
    have nonzero : n / den ≠ 0 := by
      intro zero
      simp [power, zero] at positive
    have low : 2 ^ (f.fractionBits + power) ≤ n / den :=
      Nat.le_trans (Nat.pow_le_pow_right Nat.two_pos (by omega)) (Nat.log2_self_le nonzero)
    rw [Nat.le_div_iff_mul_le pos, Nat.pow_add, ← bit] at low
    calc
      f.leadingBit * (den * 2 ^ power) = f.leadingBit * 2 ^ power * den := by ring
      _ ≤ n := low
  · refine Nat.le_trans (roundHalfEven_le _ _) ?_
    have high : n / den < 2 ^ (f.fractionBits + 1 + power) :=
      Nat.lt_of_lt_of_le Nat.lt_log2_self (Nat.pow_le_pow_right Nat.two_pos (by omega))
    rw [split, Nat.succ_le_iff, Nat.div_lt_iff_lt_mul (Nat.two_pow_pos _), bit, Nat.mul_comm 2,
      ← Nat.pow_succ, ← Nat.pow_add]
    exact high

theorem le_midpoint_iff {num den w : Nat} (pos : 0 < den) :
    (num / den : ℚ) ≤ f.midpoint w ↔
      2 * (num * 2 ^ f.unitExponent) ≤ (f.units w + f.units (w + 1)) * den := by
  have unit : (0 : ℚ) < 2 ^ f.unitExponent := by positivity
  have positive : (0 : ℚ) < den := by exact_mod_cast pos
  have two : (0 : ℚ) < 2 := two_pos
  unfold midpoint value
  rw [← add_div, div_div, div_le_div_iff₀ positive (mul_pos unit two), ← @Nat.cast_le ℚ]
  push_cast
  constructor <;> intro h <;> linarith

theorem midpoint_le_iff {num den w : Nat} (pos : 0 < den) :
    f.midpoint w ≤ (num / den : ℚ) ↔
      (f.units w + f.units (w + 1)) * den ≤ 2 * (num * 2 ^ f.unitExponent) := by
  have unit : (0 : ℚ) < 2 ^ f.unitExponent := by positivity
  have positive : (0 : ℚ) < den := by exact_mod_cast pos
  have two : (0 : ℚ) < 2 := two_pos
  unfold midpoint value
  rw [← add_div, div_div, div_le_div_iff₀ (mul_pos unit two) positive, ← @Nat.cast_le ℚ]
  push_cast
  constructor <;> intro h <;> linarith

section Parts

variable {num den p r : Nat} (pos : 0 < den) (least : 0 < p → f.leadingBit ≤ r)
  (upper : r ≤ 2 * f.leadingBit)

include pos least upper

/-- The step above a code is at least as long as the one that the code was put together with. -/
theorem le_midpoint_of_parts
    (above : 2 * (num * 2 ^ f.unitExponent) ≤ (2 * r + 1) * (den * 2 ^ p)) :
    (num / den : ℚ) ≤ f.midpoint (p * f.leadingBit + r) ∧
      (num / den = f.midpoint (p * f.leadingBit + r) →
        2 * (num * 2 ^ f.unitExponent) = (2 * r + 1) * (den * 2 ^ p)) := by
  have longer : den * 2 ^ p ≤ den * 2 ^ f.scale (p * f.leadingBit + r) :=
    Nat.mul_le_mul_left _ (Nat.pow_le_pow_right Nat.two_pos (le_scale_of_parts least))
  have steps : (f.units (p * f.leadingBit + r) + f.units (p * f.leadingBit + r + 1)) * den =
      2 * r * (den * 2 ^ p) + den * 2 ^ f.scale (p * f.leadingBit + r) := by
    rw [units_succ, units_of_parts least upper]
    ring
  refine ⟨(le_midpoint_iff pos).2 (by rw [steps]; linarith), fun touching => ?_⟩
  have := (midpoint_le_iff pos).1 touching.ge
  rw [steps] at this
  linarith

/-- The step below a code may be shorter than the one that the code was put together with, but
then the number is not below the code. -/
theorem midpoint_le_of_parts {k : Nat} (same : k + 1 = p * f.leadingBit + r)
    (normal : 0 < p → f.leadingBit * (den * 2 ^ p) ≤ num * 2 ^ f.unitExponent)
    (below : 2 * r * (den * 2 ^ p) ≤ 2 * (num * 2 ^ f.unitExponent) + den * 2 ^ p) :
    f.midpoint k ≤ (num / den : ℚ) ∧ (num / den = f.midpoint k →
      2 * r * (den * 2 ^ p) = 2 * (num * 2 ^ f.unitExponent) + den * 2 ^ p) := by
  have steps : (f.units k + f.units (k + 1)) * den + den * 2 ^ f.scale k =
      2 * r * (den * 2 ^ p) := by
    have whole : f.units k + 2 ^ f.scale k = r * 2 ^ p := by
      rw [← units_succ, same, units_of_parts least upper]
    calc
      (f.units k + f.units (k + 1)) * den + den * 2 ^ f.scale k
        = 2 * den * (f.units k + 2 ^ f.scale k) := by rw [units_succ]; ring
      _ = 2 * r * (den * 2 ^ p) := by rw [whole]; ring
  rcases Nat.lt_or_ge (f.scale k) p with shorter | longer
  · have positive := Nat.zero_lt_of_lt shorter
    have first : r = f.leadingBit := by
      refine Nat.le_antisymm ?_ (least positive)
      by_contra more
      have code : k = p * f.leadingBit + (r - 1) := by omega
      have := le_scale_of_parts (f := f) (p := p) (m := r - 1) fun _ => by omega
      rw [← code] at this
      omega
    have away : 0 < den * 2 ^ f.scale k := Nat.mul_pos pos (Nat.two_pow_pos _)
    have normal := normal positive
    rw [← first] at normal
    refine ⟨(midpoint_le_iff pos).2 (by linarith), fun touching => ?_⟩
    have := (le_midpoint_iff pos).1 touching.le
    linarith
  · have longer : den * 2 ^ p ≤ den * 2 ^ f.scale k :=
      Nat.mul_le_mul_left _ (Nat.pow_le_pow_right Nat.two_pos longer)
    refine ⟨(midpoint_le_iff pos).2 (by linarith), fun touching => ?_⟩
    have := (le_midpoint_iff pos).1 touching.le
    linarith

end Parts

/-- The function that rounds finds the nearest magnitude. -/
theorem rounds_nearest (wide : 0 < f.fractionBits) (num : Nat) {den : Nat} (pos : 0 < den) :
    f.Rounds (num / den) (f.nearest num den) := by
  unfold nearest
  simp only [Nat.pow_eq]
  obtain ⟨normal, upper⟩ := f.power_fits (n := num * 2 ^ f.unitExponent) pos
  generalize (num * 2 ^ f.unitExponent / den).log2 - f.fractionBits = p at normal upper ⊢
  have step : 0 < den * 2 ^ p := Nat.mul_pos pos (Nat.two_pow_pos p)
  obtain ⟨above, below, tie⟩ := roundHalfEven_spec (n := num * 2 ^ f.unitExponent) step
  have floor := le_roundHalfEven (num * 2 ^ f.unitExponent) (den * 2 ^ p)
  generalize roundHalfEven (num * 2 ^ f.unitExponent) (den * 2 ^ p) = r
    at upper above below tie floor ⊢
  have least (positive : 0 < p) : f.leadingBit ≤ r :=
    Nat.le_trans ((Nat.le_div_iff_mul_le step).2 (normal positive)) floor
  have even (h : r % 2 = 0) : (p * f.leadingBit + r) % 2 = 0 := by
    simp [Nat.add_mod, Nat.mul_mod, leadingBit_even wide, h]
  have high := le_midpoint_of_parts pos least upper above
  have low {k : Nat} (same : k + 1 = p * f.leadingBit + r) :=
    midpoint_le_of_parts pos least upper same normal below
  generalize p * f.leadingBit + r = w at even high low
  rcases Nat.lt_or_ge f.infinity w with beyond | known
  · -- The number is larger than infinity, which no smaller magnitude is as near to.
    obtain ⟨k, rfl⟩ := Nat.exists_eq_succ_of_ne_zero (Nat.ne_zero_of_lt beyond)
    rw [Nat.min_eq_left (Nat.le_of_lt beyond)]
    refine rounds_iff.2 ⟨le_rfl, fun finite => absurd finite (Nat.lt_irrefl _), fun j same => ?_⟩
    have apart := midpoint_strictMono (f := f) (show j < k by omega)
    have above := apart.trans_le (low rfl).1
    exact ⟨above.le, fun touching => absurd touching above.ne'⟩
  · rw [Nat.min_eq_right known]
    refine rounds_iff.2 ⟨known, fun _ => ⟨high.1, fun touching => ?_⟩, fun k same => ?_⟩
    · exact even (tie (.inl (high.2 touching)))
    · exact ⟨(low same).1, fun touching => even (tie (.inr ((low same).2 touching)))⟩

end Format

theorem rounds_magnitudeOfDecimal (d : Decimal) :
    double.Rounds d.value (Double.magnitudeOfDecimal d) := by
  obtain ⟨c, e⟩ := d
  unfold Double.magnitudeOfDecimal
  cases e with
  | ofNat n =>
    have rounds := Format.rounds_nearest (f := double) (by decide) (c * 10 ^ n) Nat.one_pos
    rw [Nat.cast_one, div_one] at rounds
    rw [Decimal.value_ofNat]
    exact rounds
  | negSucc n =>
    have rounds := Format.rounds_nearest (f := double) (by decide) c
      (Nat.pow_pos (n := n + 1) (show 0 < 10 by decide))
    rw [Decimal.value_negSucc]
    exact rounds

end Gremlin.Number
