import Gremlin.Proofs.Number.Nearest
import Mathlib.Tactic.LinearCombination

/-!
# Reading a shortest decimal back

A decimal stands for the magnitude that it is nearest to. The decimals nearest to one
magnitude form an interval that reaches half a step to either side, and the ends belong
to it when the mantissa is even. The shortest decimal of a magnitude is chosen from this
interval, so reading it gives the magnitude back.

Results:
1. `contains_iff_rounds`: the points of the interval are the decimals that are rounded to
   the magnitude.
2. `shortest_mem`, `rounds_shortest`: the shortest decimal lies in the interval.
3. `magnitudeOfDecimal_shortest`: the shortest decimal is read as the magnitude.
-/

namespace Gremlin.Number

/-! ## The ends of the interval -/

namespace Format

variable {f : Format}

/-- How far the interval reaches down, in quarters of a step: a magnitude that starts a
binade has a nearer neighbour below. -/
def reach (f : Format) (w : Nat) : Nat := if f.isBinadeStart w then 1 else 2

/-- The lower half of the interval is only shorter where a binade starts. -/
theorem isBinadeStart_iff {w : Nat} :
    f.isBinadeStart w = true ↔ 0 < f.scale w ∧ f.mantissa w = f.leadingBit := by
  unfold isBinadeStart mantissa
  rw [Bool.and_eq_true, beq_iff_eq, decide_eq_true_eq, and_comm]
  refine and_congr_right fun positive => ?_
  have nonzero : w / f.leadingBit ≠ 0 := by
    unfold scale at positive
    omega
  rw [if_neg nonzero]
  omega

theorem scale_of_succ {k : Nat} (notFirst : ¬ f.isBinadeStart (k + 1) = true) :
    f.scale k = f.scale (k + 1) := by
  have pos := f.leadingBit_pos
  unfold isBinadeStart scale at notFirst
  unfold scale
  rw [Bool.and_eq_true, beq_iff_eq, decide_eq_true_eq, not_and] at notFirst
  have whole := Nat.div_add_mod k f.leadingBit
  have small := Nat.mod_lt k pos
  rcases Nat.lt_or_ge (k % f.leadingBit + 1) f.leadingBit with inside | last
  · have code : k + 1 = k % f.leadingBit + 1 + f.leadingBit * (k / f.leadingBit) := by omega
    have same : (k + 1) / f.leadingBit = k / f.leadingBit := by
      rw [code, Nat.add_mul_div_left _ _ pos, Nat.div_eq_of_lt inside, Nat.zero_add]
    rw [same]
  · have code : k + 1 = 0 + f.leadingBit * (k / f.leadingBit + 1) := by
      rw [Nat.mul_add, Nat.mul_one]
      omega
    have next : (k + 1) / f.leadingBit = k / f.leadingBit + 1 := by
      rw [code, Nat.add_mul_div_left _ _ pos, Nat.zero_div, Nat.zero_add]
    have zero : (k + 1) % f.leadingBit = 0 := by rw [code, Nat.add_mul_mod_self_left, Nat.zero_mod]
    have := notFirst zero
    omega

theorem scale_of_binadeStart {k : Nat} (start : f.isBinadeStart (k + 1) = true) :
    f.scale (k + 1) = f.scale k + 1 := by
  obtain ⟨positive, leading⟩ := isBinadeStart_iff.1 start
  have pos := f.leadingBit_pos
  have code := f.code_eq (k + 1)
  rw [leading] at code
  have before : k = f.leadingBit - 1 + f.leadingBit * f.scale (k + 1) := by
    rw [Nat.mul_comm]
    omega
  have quotient : k / f.leadingBit = f.scale (k + 1) := by
    rw [before, Nat.add_mul_div_left _ _ pos, Nat.div_eq_of_lt (by omega), Nat.zero_add, ← before]
  generalize f.scale (k + 1) = s at positive quotient
  unfold scale
  omega

/-- Halfway to the next smaller magnitude, in quarters of a step. -/
theorem units_add_units_succ (k : Nat) : 2 * (f.units k + f.units (k + 1)) =
    (4 * f.mantissa (k + 1) - f.reach (k + 1)) * 2 ^ f.scale (k + 1) := by
  have step := f.units_succ k
  have parts : f.units (k + 1) = f.mantissa (k + 1) * 2 ^ f.scale (k + 1) := rfl
  unfold reach
  split
  · next start =>
    have leading := (isBinadeStart_iff.1 start).2
    have scale := scale_of_binadeStart start
    have pos := f.leadingBit_pos
    rw [Nat.sub_mul, Nat.mul_assoc, ← parts, scale, Nat.pow_succ]
    omega
  · next notFirst =>
    rw [Nat.sub_mul, Nat.mul_assoc, ← parts, ← scale_of_succ notFirst]
    omega

/-- A quarter of the step behind a magnitude, on the grid of its interval. -/
def quarter (f : Format) (w : Nat) : Nat :=
  5 ^ (f.unitExponent + 2 - f.scale w) * 2 ^ (f.scale w - (f.unitExponent + 2))

theorem quarter_pos (f : Format) (w : Nat) : 0 < f.quarter w :=
  Nat.mul_pos (Nat.pow_pos (by decide)) (Nat.two_pow_pos _)

theorem interval_low (w : Nat) :
    (f.interval w).low = (4 * f.mantissa w - f.reach w) * f.quarter w := rfl

theorem interval_value (w : Nat) : (f.interval w).value = 4 * f.mantissa w * f.quarter w := rfl

theorem interval_high (w : Nat) :
    (f.interval w).high = (4 * f.mantissa w + 2) * f.quarter w := rfl

/-- The factor that turns quarters of a step into powers of ten, against the powers of two that
turn them into units. -/
theorem quarter_mul (w : Nat) :
    f.quarter w * 2 ^ (f.unitExponent + 2) = 2 ^ f.scale w * 10 ^ (f.interval w).places := by
  have places : (f.interval w).places = f.unitExponent + 2 - f.scale w := rfl
  have exponents : f.scale w - (f.unitExponent + 2) + (f.unitExponent + 2) =
      f.scale w + (f.unitExponent + 2 - f.scale w) := by omega
  have ten (k : Nat) : (10 : Nat) ^ k = 5 ^ k * 2 ^ k := Nat.mul_pow 5 2 k
  rw [quarter, Nat.mul_assoc, ← Nat.pow_add, exponents, Nat.pow_add, Nat.mul_left_comm, ← ten,
    places]

theorem quarter_steps (w a : Nat) : ((a * f.quarter w : Nat) : ℚ) /
    10 ^ (f.interval w).places = a * 2 ^ f.scale w / (4 * 2 ^ f.unitExponent) := by
  have same : (f.quarter w : ℚ) * 2 ^ (f.unitExponent + 2) =
      2 ^ f.scale w * 10 ^ (f.interval w).places := by exact_mod_cast quarter_mul w
  rw [pow_add] at same
  rw [Nat.cast_mul, div_eq_div_iff (by positivity) (by positivity)]
  linear_combination (a : ℚ) * same

theorem high_eq_midpoint (w : Nat) :
    ((f.interval w).high : ℚ) / 10 ^ (f.interval w).places = f.midpoint w := by
  have step : (f.units (w + 1) : ℚ) = f.units w + 2 ^ f.scale w := by exact_mod_cast f.units_succ w
  have parts : (f.units w : ℚ) = f.mantissa w * 2 ^ f.scale w := by
    exact_mod_cast (rfl : f.units w = _)
  rw [interval_high, quarter_steps, midpoint, value, value, step, parts]
  push_cast
  field_simp
  ring

theorem low_eq_midpoint (k : Nat) :
    ((f.interval (k + 1)).low : ℚ) / 10 ^ (f.interval (k + 1)).places = f.midpoint k := by
  have half : (2 * (f.units k + f.units (k + 1)) : ℚ) =
      (4 * f.mantissa (k + 1) - f.reach (k + 1) : Nat) * 2 ^ f.scale (k + 1) := by
    exact_mod_cast units_add_units_succ k
  rw [interval_low, quarter_steps, ← half, midpoint, value, value]
  field_simp
  ring

/-- The points of the interval are the decimals that are rounded to the magnitude. -/
theorem contains_iff_rounds (wide : 0 < f.fractionBits) {w point : Nat} (nonzero : w ≠ 0)
    (finite : w < f.infinity) : (f.interval w).contains point = true ↔
      f.Rounds (point / 10 ^ (f.interval w).places) w := by
  obtain ⟨k, rfl⟩ := Nat.exists_eq_succ_of_ne_zero nonzero
  have tens : (0 : ℚ) < 10 ^ (f.interval (k + 1)).places := by positivity
  have closed : (f.interval (k + 1)).closed = decide ((k + 1) % 2 = 0) := by
    have code := f.code_eq (k + 1)
    have parity : (k + 1) % 2 = f.mantissa (k + 1) % 2 := by
      conv_lhs => rw [code]
      simp [Nat.add_mod, Nat.mul_mod, leadingBit_even wide]
    rw [parity]
    rfl
  rw [rounds_iff, ← high_eq_midpoint]
  simp only [Nat.succ_eq_add_one, Nat.add_right_cancel_iff, forall_eq, ← low_eq_midpoint,
    div_le_div_iff_of_pos_right tens, div_left_inj' tens.ne', Nat.cast_le, Nat.cast_inj, finite,
    finite.le, true_and, true_implies]
  unfold Interval.contains
  rw [closed]
  by_cases even : (k + 1) % 2 = 0
  · simp [even, and_comm]
  · simp [even]
    omega

end Format

/-! ## The search for the shortest decimal -/

namespace Interval

theorem contains_of_pick? {i : Interval} {tie : Tie} {step c : Nat}
    (picked : i.pick? tie step = some c) : i.contains (c * step) = true := by
  unfold pick? at picked
  dsimp only at picked
  split at picked
  · next below above =>
    have either : c = i.value / step ∨ c = i.value / step + 1 := by
      split at picked
      · exact .inl (Option.some.inj picked).symm
      · split at picked
        · exact .inr (Option.some.inj picked).symm
        · split at picked
          · exact .inr (Option.some.inj picked).symm
          · have parity := Option.some.inj picked
            omega
    rcases either with rfl | rfl
    · exact below
    · exact above
  · next below _ => exact Option.some.inj picked ▸ below
  · next above => exact Option.some.inj picked ▸ above
  · simp at picked

/-- The search ends at a point of the interval, on some grid. -/
theorem exists_of_search {i : Interval} (inside : i.contains i.value = true) (tie : Tie) (n : Nat) :
    ∃ g : Nat, (i.search tie n).exponent = (g : Int) - i.places ∧
      i.contains ((i.search tie n).coefficient * 10 ^ g) = true := by
  induction n with
  | zero => exact ⟨0, by simp [search], by simpa [search] using inside⟩
  | succ n ih =>
    unfold search
    split
    · next c picked =>
      exact ⟨n + 1, rfl, by simpa only [Nat.pow_eq] using contains_of_pick? picked⟩
    · exact ih

end Interval

namespace Format

variable {f : Format} {w : Nat}

theorem mantissa_pos (nonzero : w ≠ 0) : 0 < f.mantissa w := by
  have code := f.code_eq w
  have bit := f.leadingBit_pos
  unfold mantissa
  split <;> omega

theorem contains_value (nonzero : w ≠ 0) :
    (f.interval w).contains (f.interval w).value = true := by
  have positive := f.mantissa_pos nonzero
  have low : (f.interval w).low < (f.interval w).value := by
    rw [interval_low, interval_value]
    refine Nat.mul_lt_mul_of_pos_right ?_ (f.quarter_pos w)
    unfold reach
    split <;> omega
  have high : (f.interval w).value < (f.interval w).high := by
    rw [interval_value, interval_high]
    exact Nat.mul_lt_mul_of_pos_right (by omega) (f.quarter_pos w)
  unfold Interval.contains
  split
  · simp only [Bool.and_eq_true, decide_eq_true_eq]
    exact ⟨low.le, high.le⟩
  · simp only [Bool.and_eq_true, decide_eq_true_eq]
    exact ⟨low, high⟩

/-- The shortest decimal lies in the interval of its magnitude. -/
theorem shortest_mem (nonzero : w ≠ 0) (tie : Tie) :
    ∃ g : Nat, (f.shortest tie w).exponent = (g : Int) - (f.interval w).places ∧
      (f.interval w).contains ((f.shortest tie w).coefficient * 10 ^ g) = true := by
  unfold shortest
  rw [if_neg nonzero]
  exact Interval.exists_of_search (contains_value nonzero) tie _

/-- A number of a grid that is at least as coarse as the interval's own. -/
theorem grid_value (w c g : Nat) : (c : ℚ) * 10 ^ ((g : Int) - (f.interval w).places) =
    (c * 10 ^ g : Nat) / 10 ^ (f.interval w).places := by
  rw [zpow_sub₀ (by norm_num), zpow_natCast, zpow_natCast]
  push_cast
  ring

/-- The shortest decimal is rounded to the magnitude. -/
theorem rounds_shortest (wide : 0 < f.fractionBits) (finite : w < f.infinity) (tie : Tie) :
    f.Rounds (f.shortest tie w).value w := by
  by_cases zero : w = 0
  · subst zero
    have same : (f.shortest tie 0).value = f.value 0 := by
      simp [shortest, Decimal.value, value_zero]
    rw [same]
    exact rounds_value (Nat.zero_le _)
  · obtain ⟨g, exponent, inside⟩ := shortest_mem zero tie
    rw [Decimal.value, exponent, grid_value]
    exact (contains_iff_rounds wide zero finite).1 inside

end Format

/-- The shortest decimal of a finite double is read as the double. -/
theorem magnitudeOfDecimal_shortest {w : Nat} (finite : w < double.infinity) (tie : Tie) :
    Double.magnitudeOfDecimal (double.shortest tie w) = w :=
  (rounds_magnitudeOfDecimal _).unique (Format.rounds_shortest (by decide) finite tie)

example : double.shortest .up 0x3e60000000000000 = ⟨29802322387695313, -24⟩ := by decide +kernel
example : double.shortest .even 0x3e60000000000000 = ⟨29802322387695312, -24⟩ := by decide +kernel

end Gremlin.Number
