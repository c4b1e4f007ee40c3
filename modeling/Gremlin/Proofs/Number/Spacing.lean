import Gremlin.Proofs.Number.FewestDigits
import Mathlib.Data.Rat.Floor

/-!
# The distances between magnitudes

The distance from a magnitude to the next larger one never shrinks as the magnitudes grow. It is
more than the magnitude divided by the codes of two binades, and, unless the leading bit is
missing, no more than the magnitude divided by those of one.

Results:
1. `step_mul_le`, `midpoint_lt_step_mul`: the distance in terms of the magnitude.
2. `shortest_eq_of_coarse`: a decimal on a grid coarser than the distance is the shortest one.
3. `neg_le_exponent_shortest`: how fine a grid can be needed.
-/

namespace Gremlin.Number.Format

variable {f : Format}

/-- The distance to the next larger magnitude. -/
def step (f : Format) (w : Nat) : ℚ := 2 ^ f.scale w / 2 ^ f.unitExponent

theorem step_pos (f : Format) (w : Nat) : 0 < f.step w := by
  unfold step
  positivity

theorem step_mono {v w : Nat} (le : v ≤ w) : f.step v ≤ f.step w := by
  have scale : f.scale v ≤ f.scale w := Nat.sub_le_sub_right (Nat.div_le_div_right le) 1
  have power : (2 : ℚ) ^ f.scale v ≤ 2 ^ f.scale w := pow_le_pow_right₀ (by norm_num) scale
  unfold step
  gcongr

theorem value_eq_mantissa_mul_step (w : Nat) : f.value w = f.mantissa w * f.step w := by
  have units : (f.units w : ℚ) = f.mantissa w * 2 ^ f.scale w := by
    exact_mod_cast (rfl : f.units w = _)
  rw [value, units, step, mul_div_assoc]

theorem value_succ (w : Nat) : f.value (w + 1) = f.value w + f.step w := by
  have units : (f.units (w + 1) : ℚ) = f.units w + 2 ^ f.scale w := by
    exact_mod_cast f.units_succ w
  rw [value, units, add_div]
  rfl

theorem midpoint_eq (w : Nat) : f.midpoint w = f.value w + f.step w / 2 := by
  rw [midpoint, value_succ]
  ring

theorem leadingBit_le_mantissa_of_le {w : Nat} (normal : f.leadingBit ≤ w) :
    f.leadingBit ≤ f.mantissa w := by
  have positive : 0 < w / f.leadingBit := Nat.div_pos normal f.leadingBit_pos
  rw [mantissa, if_neg (Nat.ne_of_gt positive)]
  exact Nat.le_add_left _ _

theorem step_mul_le {w : Nat} (normal : f.leadingBit ≤ w) :
    f.step w * f.leadingBit ≤ f.value w := by
  have mantissa : (f.leadingBit : ℚ) ≤ f.mantissa w := by
    exact_mod_cast leadingBit_le_mantissa_of_le normal
  rw [value_eq_mantissa_mul_step, mul_comm]
  exact mul_le_mul_of_nonneg_right mantissa (f.step_pos w).le

theorem midpoint_lt_step_mul (w : Nat) : f.midpoint w < f.step w * (2 * f.leadingBit) := by
  have mantissa : (f.mantissa w : ℚ) + 1 ≤ 2 * f.leadingBit := by
    exact_mod_cast Nat.succ_le_of_lt (f.mantissa_lt w)
  have positive := f.step_pos w
  calc
    f.midpoint w < (f.mantissa w + 1) * f.step w := by
      rw [midpoint_eq, value_eq_mantissa_mul_step]
      linarith
    _ ≤ 2 * f.leadingBit * f.step w := mul_le_mul_of_nonneg_right mantissa positive.le
    _ = f.step w * (2 * f.leadingBit) := mul_comm _ _

/-- The part of the number line that is rounded to a magnitude. -/
theorem midpoint_sub_midpoint (k : Nat) :
    f.midpoint (k + 1) - f.midpoint k = (f.step k + f.step (k + 1)) / 2 := by
  rw [midpoint_eq, midpoint_eq, value_succ]
  ring

/-- What is rounded to a magnitude is not much less than it. -/
theorem Rounds.step_mul_le {x : ℚ} {w : Nat} (rounds : f.Rounds x w) (normal : f.leadingBit ≤ w) :
    f.step w * f.leadingBit ≤ 2 * x := by
  obtain ⟨k, rfl⟩ := Nat.exists_eq_succ_of_ne_zero
    (Nat.ne_of_gt (Nat.lt_of_lt_of_le f.leadingBit_pos normal))
  have below := rounds.midpoint_le
  have large := Format.step_mul_le normal
  have shorter : f.step k ≤ f.step (k + 1) := step_mono (Nat.le_succ k)
  have positive := f.step_pos (k + 1)
  have bit : (1 : ℚ) ≤ f.leadingBit := by exact_mod_cast f.leadingBit_pos
  have one := mul_le_mul_of_nonneg_left bit positive.le
  simp only [Nat.succ_eq_add_one] at large ⊢
  rw [value_succ] at large
  rw [midpoint_eq] at below
  linarith

/-- Two points of a grid that are less than a step apart are the same point. -/
theorem eq_of_close_points {m n : Nat} {low high step : ℚ} (pos : 0 < step)
    (short : high - low < step) (left : low ≤ m * step ∧ m * step ≤ high)
    (right : low ≤ n * step ∧ n * step ≤ high) : m = n := by
  have one {m n : Nat} (left : m * step ≤ high) (right : low ≤ n * step) : m ≤ n := by
    have less : (m : ℚ) < n + 1 := by
      refine lt_of_mul_lt_mul_right ?_ pos.le
      linarith
    exact Nat.le_of_lt_succ (by exact_mod_cast less)
  exact Nat.le_antisymm (one left.2 right.1) (one right.2 left.1)

section Shortest

variable {w : Nat} (wide : 0 < f.fractionBits) (tie : Tie)

include wide

/-- There is one point at most on a grid that is coarser than the interval. -/
theorem shortest_eq_of_coarse {k : Nat} (finite : k + 1 < f.infinity) {d : Decimal}
    (rounds : f.Rounds d.value (k + 1)) (reduced : d.coefficient % 10 ≠ 0)
    (coarse : f.midpoint (k + 1) - f.midpoint k < 10 ^ d.exponent) :
    f.shortest tie (k + 1) = d := by
  have back := rounds_shortest wide finite tie
  have finer : d.exponent ≤ (f.shortest tie (k + 1)).exponent := by
    by_contra coarser
    exact not_rounds_of_coarser wide finite tie (Nat.succ_ne_zero k) (Int.lt_of_not_ge coarser)
      rounds
  generalize f.shortest tie (k + 1) = s at back finer
  obtain ⟨c, e⟩ := s
  obtain ⟨c', e'⟩ := d
  obtain ⟨n, rfl⟩ : ∃ n : Nat, e = e' + n := ⟨(e - e').toNat, by simp only at finer; omega⟩
  have split : (Decimal.mk c (e' + n)).value = (c * 10 ^ n : Nat) * 10 ^ e' := by
    rw [Decimal.value, zpow_add₀ (by norm_num), zpow_natCast]
    push_cast
    ring
  have low := back.midpoint_le
  have high := back.le_midpoint finite
  rw [split] at low high
  have same : c * 10 ^ n = c' := eq_of_close_points (by positivity) coarse ⟨low, high⟩
    ⟨rounds.midpoint_le, rounds.le_midpoint finite⟩
  cases n with
  | zero => rw [← same, Nat.pow_zero, Nat.mul_one, Int.natCast_zero, Int.add_zero]
  | succ n =>
    refine absurd ?_ reduced
    show c' % 10 = 0
    rw [← same, Nat.pow_succ, ← Nat.mul_assoc, Nat.mul_mod_left]

/-- A grid that is finer than the interval has a point in it. -/
theorem neg_le_exponent_shortest {w : Nat} (finite : w < f.infinity) {n : Nat}
    (fine : 10 ^ (-n : Int) < f.step 0) (nonzero : w ≠ 0) :
    -n ≤ (f.shortest tie w).exponent := by
  obtain ⟨k, rfl⟩ := Nat.exists_eq_succ_of_ne_zero nonzero
  simp only [Nat.succ_eq_add_one] at *
  by_contra below
  have power : (0 : ℚ) < 10 ^ (-n : Int) := by positivity
  have low : 0 ≤ f.midpoint k := (value_nonneg k).trans (value_lt_midpoint k).le
  have inside := midpoint_sub_midpoint (f := f) k
  have least := step_mono (f := f) (Nat.zero_le k)
  have least' := step_mono (f := f) (Nat.zero_le (k + 1))
  -- The first point of the grid behind the lower end.
  have behind := Nat.lt_floor_add_one (f.midpoint k / 10 ^ (-n : Int))
  have floor := Nat.floor_le (div_nonneg low power.le)
  rw [div_lt_iff₀ power] at behind
  rw [le_div_iff₀ power] at floor
  refine not_rounds_of_coarser wide finite tie nonzero (Int.lt_of_not_ge below)
    (c := ⌊f.midpoint k / 10 ^ (-n : Int)⌋₊ + 1) ?_
  push_cast
  rw [add_mul, one_mul] at behind ⊢
  refine rounds_iff.2 ⟨finite.le, fun _ => ⟨?_, fun tie => ?_⟩, fun j same => ?_⟩
  · linarith
  · linarith
  · obtain rfl := Nat.succ.inj same
    exact ⟨behind.le, fun tie => absurd tie behind.ne'⟩

end Shortest

end Gremlin.Number.Format
