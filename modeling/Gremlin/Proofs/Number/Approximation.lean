import Gremlin.Proofs.Number.Spacing

/-!
# Several roundings in a row

Rounding changes a number by the factor `1 + 1 / (2 * leadingBit)` at most, up or down, unless the
result lacks the leading bit. Products and quotients multiply such factors. One factor leads from
a midpoint to less than the next one, so that each rounding before the last one moves the last
result by one step at most.

Results:
1. `approx_of_rounds`: one rounding is one factor.
2. `Approx.mul`, `Approx.div`: factors add up.
3. `close_of_approx`: numbers that differ by some factors are rounded to magnitudes that are as
   many steps apart at most.
-/

namespace Gremlin.Number

/-! ## Definitions -/

/-- Two magnitudes with a number of steps between them at most. -/
def Close (n v w : Nat) : Prop := v ≤ w + n ∧ w ≤ v + n

/-- The factor by which a rounding changes a number at most. -/
def Format.factor (f : Format) : ℚ := 1 + 1 / (2 * f.leadingBit)

/-- Two positive numbers that differ by a number of factors at most. -/
structure Format.Approx (f : Format) (n : Nat) (x y : ℚ) : Prop where
  pos : 0 < x
  pos' : 0 < y
  le : x ≤ y * f.factor ^ n
  ge : y ≤ x * f.factor ^ n

namespace Format

variable {f : Format}

theorem bit_pos (f : Format) : (0 : ℚ) < f.leadingBit := by exact_mod_cast f.leadingBit_pos

theorem one_lt_factor (f : Format) : 1 < f.factor := by
  have := f.bit_pos
  have : (0 : ℚ) < 1 / (2 * f.leadingBit) := by positivity
  unfold factor
  linarith

theorem factor_pos (f : Format) : 0 < f.factor := one_pos.trans f.one_lt_factor

/-! ## Factors -/

namespace Approx

variable {x y z x' y' : ℚ} {m n : Nat}

theorem refl (pos : 0 < x) : f.Approx 0 x x := ⟨pos, pos, by simp, by simp⟩

theorem symm (near : f.Approx n x y) : f.Approx n y x := ⟨near.pos', near.pos, near.ge, near.le⟩

theorem trans (left : f.Approx m x y) (right : f.Approx n y z) : f.Approx (m + n) x z := by
  have first : (0 : ℚ) ≤ f.factor ^ m := pow_nonneg f.factor_pos.le m
  have second : (0 : ℚ) ≤ f.factor ^ n := pow_nonneg f.factor_pos.le n
  refine ⟨left.pos, right.pos', ?_, ?_⟩
  · calc
      x ≤ y * f.factor ^ m := left.le
      _ ≤ z * f.factor ^ n * f.factor ^ m := mul_le_mul_of_nonneg_right right.le first
      _ = z * f.factor ^ (m + n) := by ring
  · calc
      z ≤ y * f.factor ^ n := right.ge
      _ ≤ x * f.factor ^ m * f.factor ^ n := mul_le_mul_of_nonneg_right left.ge second
      _ = x * f.factor ^ (m + n) := by ring

theorem mul (left : f.Approx m x y) (right : f.Approx n x' y') :
    f.Approx (m + n) (x * x') (y * y') := by
  have first : f.Approx m (x * x') (y * x') := by
    refine ⟨mul_pos left.pos right.pos, mul_pos left.pos' right.pos, ?_, ?_⟩
    · rw [mul_right_comm]
      exact mul_le_mul_of_nonneg_right left.le right.pos.le
    · rw [mul_right_comm]
      exact mul_le_mul_of_nonneg_right left.ge right.pos.le
  refine first.trans ⟨mul_pos left.pos' right.pos, mul_pos left.pos' right.pos', ?_, ?_⟩
  · rw [mul_assoc]
    exact mul_le_mul_of_nonneg_left right.le left.pos'.le
  · rw [mul_assoc]
    exact mul_le_mul_of_nonneg_left right.ge left.pos'.le

theorem inv (near : f.Approx n x y) : f.Approx n x⁻¹ y⁻¹ := by
  refine ⟨inv_pos.2 near.pos, inv_pos.2 near.pos', ?_, ?_⟩
  · rw [← div_eq_inv_mul, inv_eq_one_div, div_le_div_iff₀ near.pos near.pos', one_mul, mul_comm]
    exact near.ge
  · rw [← div_eq_inv_mul, inv_eq_one_div, div_le_div_iff₀ near.pos' near.pos, one_mul, mul_comm]
    exact near.le

theorem div (left : f.Approx m x y) (right : f.Approx n x' y') :
    f.Approx (m + n) (x / x') (y / y') := by
  rw [div_eq_mul_inv, div_eq_mul_inv]
  exact left.mul right.inv

end Approx

/-! ## Rounding -/

theorem leadingBit_le_of_rounds {x : ℚ} {w : Nat} (normal : f.value f.leadingBit ≤ x)
    (rounds : f.Rounds x w) (finite : w < f.infinity) : f.leadingBit ≤ w := by
  rcases Nat.lt_or_ge f.infinity f.leadingBit with outside | inside
  · have below := (rounds.le_midpoint finite).trans_lt (midpoint_lt_value w)
    have above := (value_strictMono (f := f)).monotone
      (Nat.le_of_lt (Nat.lt_of_le_of_lt (Nat.succ_le_of_lt finite) outside))
    exact absurd (below.trans_le above) (not_lt.2 normal)
  · exact (rounds_value inside).le_of_le rounds normal

theorem half_step_le {w : Nat} (known : f.leadingBit ≤ w) :
    f.step w / 2 ≤ f.value w * (1 / (2 * f.leadingBit)) := by
  have bit := f.bit_pos
  have := step_mul_le known
  rw [mul_one_div, le_div_iff₀ (by positivity)]
  linarith

/-- A number that is at least the smallest magnitude with a leading bit is changed by one factor
at most. -/
theorem approx_of_rounds {x : ℚ} {w : Nat} (normal : f.value f.leadingBit ≤ x)
    (rounds : f.Rounds x w) (finite : w < f.infinity) : f.Approx 1 x (f.value w) := by
  have bit := f.bit_pos
  have known := leadingBit_le_of_rounds normal rounds finite
  have positive : 0 < x := (value_pos f.leadingBit_pos.ne').trans_le normal
  refine ⟨positive, value_pos (Nat.lt_of_lt_of_le f.leadingBit_pos known).ne', ?_, ?_⟩
  · have below := rounds.le_midpoint finite
    rw [midpoint_eq] at below
    rw [pow_one, factor, mul_add, mul_one]
    exact below.trans (by linarith [half_step_le known])
  · rw [pow_one, factor, mul_add, mul_one]
    have nonnegative : 0 ≤ x * (1 / (2 * f.leadingBit)) := by positivity
    rcases le_or_gt (f.value w) x with up | down
    · linarith
    · -- The magnitude below still has a leading bit, for it lies below the number.
      have more : f.leadingBit < w := value_strictMono.lt_iff_lt.1 (normal.trans_lt down)
      obtain ⟨k, rfl⟩ := Nat.exists_eq_succ_of_ne_zero (Nat.ne_zero_of_lt more)
      have above := rounds.midpoint_le
      have close := half_step_le (f := f) (Nat.le_of_lt_succ more)
      have lower : f.value k ≤ x := (value_lt_midpoint k).le.trans above
      have scaled := mul_le_mul_of_nonneg_right lower
        (show (0 : ℚ) ≤ 1 / (2 * f.leadingBit) by positivity)
      rw [midpoint_eq] at above
      simp only [Nat.succ_eq_add_one, value_succ]
      linarith

/-- A factor leads from a midpoint to less than the next one. -/
theorem midpoint_mul_factor_lt (w : Nat) : f.midpoint w * f.factor < f.midpoint (w + 1) := by
  have bit := f.bit_pos
  have gap := midpoint_sub_midpoint (f := f) w
  have longer := step_mono (f := f) (Nat.le_succ w)
  have less : f.midpoint w * (1 / (2 * f.leadingBit)) < f.step w := by
    rw [mul_one_div, div_lt_iff₀ (by positivity)]
    exact midpoint_lt_step_mul w
  simp only [Nat.succ_eq_add_one] at longer
  rw [factor, mul_add, mul_one]
  linarith

theorem midpoint_mul_factor_pow_lt (w n : Nat) :
    f.midpoint w * f.factor ^ (n + 1) < f.midpoint (w + (n + 1)) := by
  induction n with
  | zero =>
    rw [Nat.zero_add, pow_one]
    exact midpoint_mul_factor_lt w
  | succ n ih =>
    calc
      f.midpoint w * f.factor ^ (n + 1 + 1) = f.midpoint w * f.factor ^ (n + 1) * f.factor := by
        ring
      _ < f.midpoint (w + (n + 1)) * f.factor := mul_lt_mul_of_pos_right ih f.factor_pos
      _ < f.midpoint (w + (n + 1) + 1) := midpoint_mul_factor_lt _

theorem le_add_of_approx {x y : ℚ} {v w n : Nat} (near : f.Approx n x y) (left : f.Rounds x v)
    (right : f.Rounds y w) : w ≤ v + n := by
  cases n with
  | zero =>
    have same := near.ge
    rw [pow_zero, mul_one] at same
    exact right.le_of_le left same
  | succ n =>
    rcases Nat.lt_or_ge v f.infinity with finite | infinite
    · by_contra beyond
      obtain ⟨k, rfl⟩ := Nat.exists_eq_succ_of_ne_zero (Nat.ne_zero_of_lt (Nat.lt_of_not_le beyond))
      have inside : v + (n + 1) ≤ k := by omega
      have power : (0 : ℚ) ≤ f.factor ^ (n + 1) := pow_nonneg f.factor_pos.le _
      have above := (midpoint_strictMono (f := f)).monotone inside
      have below := midpoint_mul_factor_pow_lt (f := f) v n
      have moved := mul_le_mul_of_nonneg_right (left.le_midpoint finite) power
      exact absurd (right.midpoint_le.trans near.ge) (by linarith)
    · exact right.known.trans (infinite.trans (Nat.le_add_right _ _))

theorem close_of_approx {x y : ℚ} {v w n : Nat} (near : f.Approx n x y) (left : f.Rounds x v)
    (right : f.Rounds y w) : Close n v w :=
  ⟨le_add_of_approx near.symm right left, le_add_of_approx near left right⟩

end Format

end Gremlin.Number
