import Gremlin.Number.Layout
import Gremlin.Proofs.Number.ReadBack
import Mathlib.Algebra.Order.Field.Power

/-!
# The fewest digits

The search for the shortest decimal goes through the grids from the coarsest to the finest. So no
decimal on a coarser grid than that of the shortest decimal is rounded to the magnitude. The
shortest decimal therefore does not end in a zero, and no decimal with fewer digits is rounded to
the magnitude: a shorter one on a finer grid would be smaller than a power of ten that lies
between it and the shortest decimal.

Results:
1. `not_rounds_of_coarser`: what the search does not find.
2. `length_digits_shortest_le`: no decimal with fewer digits will do.
3. `coefficient_shortest_mul_le`: how many digits there can be.
-/

namespace Gremlin.Number

/-! ## Digits -/

theorem digits_length_pos (n : Nat) : 0 < (digits n).length := Nat.length_toDigits_pos

theorem lt_ten_pow_digits (n : Nat) : n < 10 ^ (digits n).length :=
  (Nat.length_toDigits_le_iff (by decide) (digits_length_pos n)).1 (Nat.le_refl _)

theorem ten_pow_le_of_lt_digits {n k : Nat} (nonzero : n ≠ 0) (less : k < (digits n).length) :
    10 ^ k ≤ n := by
  rcases Nat.eq_zero_or_pos k with rfl | positive
  · exact Nat.one_le_iff_ne_zero.2 nonzero
  · by_contra below
    have few := (Nat.length_toDigits_le_iff (by decide) positive).2 (Nat.lt_of_not_le below)
    exact absurd few (Nat.not_le.2 less)

/-! ## The search -/

namespace Interval

variable {i : Interval}

theorem bounds_of_contains {point : Nat} (inside : i.contains point = true) :
    i.low ≤ point ∧ point ≤ i.high := by
  unfold contains at inside
  split at inside <;> simp only [Bool.and_eq_true, decide_eq_true_eq] at inside <;> omega

theorem contains_of_between {a b c : Nat} (low : i.contains a = true) (high : i.contains c = true)
    (le : a ≤ b) (le' : b ≤ c) : i.contains b = true := by
  unfold contains at low high ⊢
  split at low <;> simp_all <;> omega

theorem not_contains_of_pick?_eq_none {tie : Tie} {step : Nat} (missed : i.pick? tie step = none) :
    i.contains (i.value / step * step) = false ∧
      i.contains ((i.value / step + 1) * step) = false := by
  unfold pick? at missed
  dsimp only at missed
  split at missed
  · split at missed
    · cases missed
    · split at missed
      · cases missed
      · cases tie <;> cases missed
  · cases missed
  · cases missed
  · next below above => exact ⟨below, above⟩

/-- A grid without a neighbour of the value in the interval has no point there at all. -/
theorem not_contains_of_neighbours {step : Nat} (inside : i.contains i.value = true)
    (below : i.contains (i.value / step * step) = false)
    (above : i.contains ((i.value / step + 1) * step) = false) (c : Nat) :
    i.contains (c * step) = false := by
  rcases Nat.eq_zero_or_pos step with rfl | pos
  · exact below
  · rw [Bool.eq_false_iff]
    intro point
    rcases Nat.lt_or_ge (i.value / step) c with beyond | within
    · have value : i.value ≤ (i.value / step + 1) * step := by
        rw [Nat.succ_mul]
        exact (Nat.lt_div_mul_add pos).le
      have nearer := contains_of_between inside point value (Nat.mul_le_mul_right _ beyond)
      exact Bool.false_ne_true (above.symm.trans nearer)
    · have nearer := contains_of_between point inside (Nat.mul_le_mul_right _ within)
        (Nat.div_mul_le_self _ _)
      exact Bool.false_ne_true (below.symm.trans nearer)

/-- The search passes over a grid only if the interval has no point on it. -/
theorem not_contains_of_search (inside : i.contains i.value = true) (tie : Tie) {n g : Nat}
    (coarser : (i.search tie n).exponent < (g : Int) - i.places) (within : g ≤ n) (c : Nat) :
    i.contains (c * 10 ^ g) = false := by
  induction n with
  | zero =>
    obtain rfl := Nat.le_zero.1 within
    simp [search] at coarser
  | succ n ih =>
    unfold search at coarser
    split at coarser
    · next picked =>
      have : ((n + 1 : Nat) : Int) < g := by simpa using coarser
      omega
    · next missed =>
      rcases Nat.lt_or_ge n g with last | before
      · obtain rfl : g = n + 1 := Nat.le_antisymm within last
        obtain ⟨below, above⟩ := not_contains_of_pick?_eq_none missed
        exact not_contains_of_neighbours inside below above c
      · exact ih coarser before

/-- On a grid that is coarser than that of the shortest decimal the interval has no point. -/
theorem not_contains_of_shortest (inside : i.contains i.value = true) (positive : 0 < i.low)
    (near : i.high ≤ 2 * i.value) (tie : Tie) {g : Nat}
    (coarser : (i.shortest tie).exponent < (g : Int) - i.places) (c : Nat) :
    i.contains (c * 10 ^ g) = false := by
  rcases Nat.lt_or_ge (digits i.value).length g with outside | within
  · have small := lt_ten_pow_digits i.value
    have power : 10 ^ (digits i.value).length * 10 ≤ 10 ^ g := by
      rw [← Nat.pow_succ]
      exact Nat.pow_le_pow_right (by decide) outside
    rw [Bool.eq_false_iff]
    intro point
    have bounds := bounds_of_contains point
    rcases Nat.eq_zero_or_pos c with rfl | some
    · omega
    · have := Nat.mul_le_mul_right (10 ^ g) some
      omega
  · exact not_contains_of_search inside tie coarser within c

/-- A grid without a point in the interval is at least as coarse as the interval is long. -/
theorem high_le_of_not_contains {step : Nat} (pos : 0 < step)
    (none : ∀ c, i.contains (c * step) = false) : i.high ≤ i.low + step := by
  by_contra longer
  have point := none (i.low / step + 1)
  have whole := Nat.div_add_mod i.low step
  have rest := Nat.mod_lt i.low pos
  have next : (i.low / step + 1) * step = step * (i.low / step) + step := by ring
  unfold contains at point
  rw [next] at point
  split at point <;> simp only [Bool.and_eq_false_iff, decide_eq_false_iff_not] at point <;> omega

end Interval

namespace Format

variable {f : Format}

/-! ## The shortest decimal -/

theorem low_pos {w : Nat} (nonzero : w ≠ 0) : 0 < (f.interval w).low := by
  have := f.mantissa_pos nonzero
  refine Nat.mul_pos ?_ (f.quarter_pos w)
  split <;> omega

theorem high_le_two_mul_value {w : Nat} (nonzero : w ≠ 0) :
    (f.interval w).high ≤ 2 * (f.interval w).value := by
  have := f.mantissa_pos nonzero
  rw [interval_high, interval_value, ← Nat.mul_assoc]
  exact Nat.mul_le_mul_right _ (by omega)

/-- How many digits there can be: on a grid that is finer than a tenth of the interval there is
a point with one digit less. -/
theorem coefficient_shortest_mul_le {w : Nat} (tie : Tie) (nonzero : w ≠ 0) :
    (f.shortest tie w).coefficient * (f.reach w + 2) ≤ 10 * (4 * f.mantissa w + 2) := by
  obtain ⟨g, exponent, inside⟩ := shortest_mem (f := f) nonzero tie
  have coarse (c : Nat) : (f.interval w).contains (c * 10 ^ (g + 1)) = false := by
    refine Interval.not_contains_of_shortest (contains_value nonzero) (low_pos nonzero)
      (high_le_two_mul_value nonzero) tie ?_ c
    rw [shortest, if_neg nonzero] at exponent
    omega
  have tens : 0 < 10 ^ g := Nat.pow_pos (by decide)
  have positive := f.quarter_pos w
  have long := Interval.high_le_of_not_contains (Nat.pow_pos (by decide)) coarse
  have below := (Interval.bounds_of_contains inside).2
  have quarters : 4 * f.mantissa w + 2 = 4 * f.mantissa w - f.reach w + (f.reach w + 2) := by
    have := f.mantissa_pos nonzero
    unfold reach
    split <;> omega
  have short : (f.reach w + 2) * f.quarter w ≤ 10 ^ (g + 1) := by
    rw [interval_high, interval_low, quarters, Nat.add_mul] at long
    exact Nat.le_of_add_le_add_left long
  rw [interval_high] at below
  generalize (f.shortest tie w).coefficient = c at below
  generalize f.quarter w = q at below short positive
  refine Nat.le_of_mul_le_mul_right ?_ (Nat.mul_pos positive tens)
  calc
    c * (f.reach w + 2) * (q * 10 ^ g) = c * 10 ^ g * ((f.reach w + 2) * q) := by ring
    _ ≤ (4 * f.mantissa w + 2) * q * 10 ^ (g + 1) := Nat.mul_le_mul below short
    _ = 10 * (4 * f.mantissa w + 2) * (q * 10 ^ g) := by ring

variable {w : Nat} (wide : 0 < f.fractionBits) (finite : w < f.infinity) (tie : Tie)

include wide finite

/-- No decimal with a larger exponent is rounded to the magnitude. -/
theorem not_rounds_of_coarser (nonzero : w ≠ 0) {c : Nat} {k : Int}
    (coarser : (f.shortest tie w).exponent < k) : ¬ f.Rounds (c * 10 ^ k) w := by
  obtain ⟨g₀, exponent, -⟩ := shortest_mem (f := f) nonzero tie
  obtain ⟨g, rfl⟩ : ∃ g : Nat, k = g - (f.interval w).places :=
    ⟨(k + (f.interval w).places).toNat, by omega⟩
  have none := Interval.not_contains_of_shortest (contains_value nonzero) (low_pos nonzero)
    (high_le_two_mul_value nonzero) tie (g := g)
    (by simpa only [shortest, if_neg nonzero] using coarser) c
  rw [grid_value, ← contains_iff_rounds wide nonzero finite, none]
  exact Bool.false_ne_true

/-- The shortest decimal does not end in a zero. -/
theorem coefficient_shortest_mod_ten (nonzero : w ≠ 0) :
    (f.shortest tie w).coefficient % 10 ≠ 0 := by
  intro zero
  have rounds := rounds_shortest wide finite tie
  refine not_rounds_of_coarser wide finite tie nonzero (Int.lt_succ _)
    (c := (f.shortest tie w).coefficient / 10) ?_
  have split : ((f.shortest tie w).coefficient : ℚ) =
      ((f.shortest tie w).coefficient / 10 : Nat) * 10 := by
    exact_mod_cast (Nat.div_mul_cancel (Nat.dvd_of_mod_eq_zero zero)).symm
  rw [Decimal.value, split] at rounds
  rwa [zpow_add_one₀ (by norm_num), mul_comm _ (10 : ℚ), ← mul_assoc]

/-- No decimal with fewer digits is rounded to the magnitude. -/
theorem length_digits_shortest_le {d : Decimal} (rounds : f.Rounds d.value w) :
    (digits (f.shortest tie w).coefficient).length ≤ (digits d.coefficient).length := by
  by_cases zero : w = 0
  · subst zero
    have one : (digits (f.shortest tie 0).coefficient).length = 1 := by simp [shortest, digits]
    rw [one]
    exact digits_length_pos _
  have least := rounds_shortest wide finite tie
  have none {c : Nat} {k : Int} := not_rounds_of_coarser wide finite tie zero (c := c) (k := k)
  have nonzero : (f.shortest tie w).coefficient ≠ 0 := fun none =>
    coefficient_shortest_mod_ten wide finite tie zero (by rw [none])
  generalize f.shortest tie w = s at least none nonzero ⊢
  by_contra more
  have many := ten_pow_le_of_lt_digits nonzero (Nat.lt_of_not_le more)
  have few := lt_ten_pow_digits d.coefficient
  have positive := digits_length_pos d.coefficient
  generalize (digits d.coefficient).length = n at many few positive
  have finer : d.exponent ≤ s.exponent := by
    by_contra coarser
    exact none (Int.lt_of_not_ge coarser) rounds
  -- A power of ten lies between the two decimals, and stands on a coarser grid.
  have power : ((1 : Nat) : ℚ) * 10 ^ (s.exponent + n) = 10 ^ n * 10 ^ s.exponent := by
    rw [Nat.cast_one, one_mul, zpow_add₀ (by norm_num), zpow_natCast, mul_comm]
  have scale : (0 : ℚ) < 10 ^ s.exponent := by positivity
  refine none (c := 1) (k := s.exponent + n) (by omega) (rounds.between least ?_ ?_)
  · have few : (d.coefficient : ℚ) ≤ 10 ^ n := by exact_mod_cast few.le
    have finer : (10 : ℚ) ^ d.exponent ≤ 10 ^ s.exponent := zpow_le_zpow_right₀ (by norm_num) finer
    rw [power, Decimal.value]
    gcongr
  · have many : (10 : ℚ) ^ n ≤ s.coefficient := by exact_mod_cast many
    rw [power, Decimal.value]
    gcongr

example : double.shortest .even 1 = ⟨5, -324⟩ := by decide +kernel

end Format

end Gremlin.Number
