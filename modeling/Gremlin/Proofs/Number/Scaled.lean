import Gremlin.Number.Scaling
import Gremlin.Proofs.Number.Approximation

/-!
# Scaling by powers of ten is almost rounding

A decimal is scaled by rounding its coefficient, rounding a power of ten, and rounding their
product or quotient. The first two are exact for short coefficients and small exponents, and then
the result is the nearest double. Otherwise it is as many steps away as there were roundings
before the last one at most.

Results:
1. `approx_coefficient`, `approx_powerOfTen`: the roundings before the last one.
2. `scaled?_close`: the result of a scaling is close to the nearest double.
-/

namespace Gremlin.Number

open Format

/-! ## Definitions -/

/-- How many roundings come before the last one when the decimal is scaled, those that change
nothing left out. -/
def Decimal.roundings (d : Decimal) : Nat :=
  (if d.coefficient ≤ 2 ^ 53 then 0 else 1) + (if d.exponent.natAbs ≤ 22 then 0 else 1) +
    if d.exponent < -308 then 1 else 0

/-- The largest finite double, a whole number. -/
def largest : Nat := (2 ^ 53 - 1) * 2 ^ 971

theorem largest_lt {n : Nat} (beyond : 308 < n) : largest < 10 ^ n := by
  have least : largest < 10 ^ 309 := by decide +kernel
  exact least.trans_le (pow_le_pow_right₀ (by decide) beyond)

/-! ## Rounding functions -/

section Functions

variable {f : Format} (wide : 0 < f.fractionBits)

include wide

theorem nearest_mono {a b : Nat} (le : a ≤ b) : f.nearest a 1 ≤ f.nearest b 1 := by
  have left := rounds_nearest (f := f) wide a Nat.one_pos
  have right := rounds_nearest (f := f) wide b Nat.one_pos
  refine left.le_of_le right ?_
  gcongr

theorem rounds_whole (n : Nat) : f.Rounds n (f.nearest n 1) := by
  have rounds := rounds_nearest (f := f) wide n Nat.one_pos
  rwa [Nat.cast_one, div_one] at rounds

theorem rounds_product (a b : Nat) : f.Rounds (f.value a * f.value b) (f.product a b) := by
  have rounds := rounds_nearest wide (f.units a * f.units b)
    (Nat.mul_pos (Nat.two_pow_pos f.unitExponent) (Nat.two_pow_pos f.unitExponent))
  rw [Nat.cast_mul, Nat.cast_mul, ← div_mul_div_comm, ← value_eq_div, ← value_eq_div] at rounds
  exact rounds

theorem product_mono {a b a' b' : Nat} (le : a ≤ a') (le' : b ≤ b') :
    f.product a b ≤ f.product a' b' := by
  refine (rounds_product wide _ _).le_of_le (rounds_product wide _ _) ?_
  exact mul_le_mul (value_strictMono.monotone le) (value_strictMono.monotone le') (value_nonneg b)
    (value_nonneg a')

theorem rounds_quotient (a : Nat) {b : Nat} (positive : 0 < f.units b) :
    f.Rounds (f.value a / f.value b) (f.quotient a b) := by
  have rounds := rounds_nearest wide (f.units a) positive
  rwa [value_eq_div, value_eq_div, div_div_div_cancel_right₀ f.unit_pos.ne']

end Functions

theorem wide_double : 0 < double.fractionBits := by decide

theorem units_pos_of_value {f : Format} {w : Nat} (positive : 0 < f.value w) : 0 < f.units w := by
  by_contra zero
  rw [value, Nat.eq_zero_of_not_pos zero, Nat.cast_zero, zero_div] at positive
  exact lt_irrefl _ positive

/-! ## Coefficients and powers -/

/-- The last power of two is counted with the numbers before it. -/
theorem exists_binade {c : Nat} (nonzero : c ≠ 0) (short : c ≤ 2 ^ 53) :
    ∃ k ≤ 52, 2 ^ k ≤ c ∧ c ≤ 2 ^ (k + 1) := by
  rcases Nat.lt_or_ge c (2 ^ 53) with less | last
  · refine ⟨c.log2, ?_, Nat.log2_self_le nonzero, Nat.lt_log2_self.le⟩
    exact Nat.le_of_lt_succ ((Nat.log2_lt nonzero).2 less)
  · exact ⟨52, Nat.le_refl _, Nat.le_trans (by decide) last, short⟩

/-- Whole numbers of 53 binary digits are doubles. -/
theorem exists_value_eq {c : Nat} (short : c ≤ 2 ^ 53) :
    ∃ w ≤ double.infinity, double.value w = c := by
  by_cases zero : c = 0
  · exact ⟨0, Nat.zero_le _, by rw [value_zero, zero, Nat.cast_zero]⟩
  · have bit : double.leadingBit = 2 ^ 52 := rfl
    obtain ⟨k, places, low, high⟩ := exists_binade zero short
    have least : double.leadingBit ≤ c * 2 ^ (52 - k) := by
      calc
        double.leadingBit = 2 ^ k * 2 ^ (52 - k) := by
          rw [bit, ← Nat.pow_add, Nat.add_sub_cancel' places]
        _ ≤ c * 2 ^ (52 - k) := Nat.mul_le_mul_right _ low
    have most : c * 2 ^ (52 - k) ≤ 2 * double.leadingBit := by
      calc
        c * 2 ^ (52 - k) ≤ 2 ^ (k + 1) * 2 ^ (52 - k) := Nat.mul_le_mul_right _ high
        _ = 2 * double.leadingBit := by
          rw [bit, ← Nat.pow_add, ← Nat.pow_succ']
          congr 1
          omega
    refine ⟨(1022 + k) * double.leadingBit + c * 2 ^ (52 - k), ?_, ?_⟩
    · have bound : (1022 + 52) * double.leadingBit + 2 * double.leadingBit ≤ double.infinity := by
        decide
      exact Nat.le_trans (Nat.add_le_add (Nat.mul_le_mul_right _ (by omega)) most) bound
    · have unit : double.unitExponent = 1022 + k + (52 - k) := by
        have : double.unitExponent = 1074 := rfl
        omega
      refine value_of_units ?_
      rw [units_of_parts (fun _ => least) most, unit, Nat.pow_add 2 (1022 + k), Nat.mul_assoc,
        Nat.mul_comm (2 ^ (52 - k))]

theorem value_nearest_of_short {c : Nat} (short : c ≤ 2 ^ 53) :
    double.value (double.nearest c 1) = c := by
  obtain ⟨w, known, exact⟩ := exists_value_eq short
  have rounds := rounds_value known
  rw [exact] at rounds
  rw [(rounds_whole wide_double c).unique rounds, exact]

/-- The smallest double with a leading bit is less than one. -/
theorem normal_le_one : double.value double.leadingBit ≤ 1 := by
  have units : double.units double.leadingBit = 2 ^ 52 := by decide
  rw [value_eq_div, div_le_one double.unit_pos, Nat.cast_le, units]
  exact Nat.pow_le_pow_right (by decide) (by decide)

theorem approx_whole {n : Nat} (positive : 0 < n) (finite : double.nearest n 1 < double.infinity) :
    double.Approx 1 n (double.value (double.nearest n 1)) := by
  have one : (1 : ℚ) ≤ n := by exact_mod_cast positive
  exact approx_of_rounds (normal_le_one.trans one) (rounds_whole wide_double n) finite

/-- Coefficients are far from infinity. -/
theorem nearest_add_three_lt {c : Nat} (few : c ≤ 10 ^ 17) :
    double.nearest c 1 + 3 < double.infinity :=
  Nat.lt_of_le_of_lt (Nat.add_le_add_right (nearest_mono wide_double few) 3) (by decide +kernel)

theorem nearest_finite {c : Nat} (few : c ≤ 10 ^ 17) : double.nearest c 1 < double.infinity :=
  Nat.lt_of_le_of_lt (Nat.le_add_right _ 3) (nearest_add_three_lt few)

theorem approx_coefficient {c : Nat} (positive : 0 < c) (few : c ≤ 10 ^ 17) :
    double.Approx (if c ≤ 2 ^ 53 then 0 else 1) c (double.value (double.nearest c 1)) := by
  split
  · next short =>
    rw [value_nearest_of_short short]
    exact .refl (by exact_mod_cast positive)
  · exact approx_whole positive (nearest_finite few)

theorem powerOfTen_mono {m n : Nat} (le : m ≤ n) : powerOfTen m ≤ powerOfTen n :=
  nearest_mono wide_double (Nat.pow_le_pow_right (by decide) le)

theorem approx_powerOfTen {n : Nat} (inside : n ≤ 308) :
    double.Approx (if n ≤ 22 then 0 else 1) (10 ^ n) (double.value (powerOfTen n)) := by
  have positive : 0 < 10 ^ n := Nat.pow_pos (by decide)
  have cast : (10 : ℚ) ^ n = ((10 ^ n : Nat) : ℚ) := by rw [Nat.cast_pow, Nat.cast_ofNat]
  have all : ∀ n ≤ 22, double.units (powerOfTen n) = 10 ^ n * 2 ^ double.unitExponent := by
    decide +kernel
  rw [cast]
  split
  · next small =>
    rw [value_of_units (all n small)]
    exact .refl (Nat.cast_pos.2 positive)
  · exact approx_whole positive (Nat.lt_of_le_of_lt (powerOfTen_mono inside) (by decide +kernel))

theorem one_le_powerOfTen (n : Nat) : 1 ≤ double.value (powerOfTen n) := by
  have one : double.value (powerOfTen 0) = 1 := by
    rw [powerOfTen, Nat.pow_eq, Nat.pow_zero, value_nearest_of_short (by decide), Nat.cast_one]
  have smallest := (value_strictMono (f := double)).monotone (powerOfTen_mono (Nat.zero_le n))
  rwa [one] at smallest

/-- A quotient by the largest power has the leading bit, except for the coefficients one and
two. -/
theorem first_quotient_normal {c : Nat} (large : 3 ≤ c) : double.value double.leadingBit ≤
    double.value (double.nearest c 1) / double.value (powerOfTen 308) := by
  have three : (3 : ℚ) ≤ double.value (double.nearest c 1) := by
    have exact := value_nearest_of_short (c := 3) (by decide)
    rw [Nat.cast_ofNat] at exact
    exact exact.symm.le.trans (value_strictMono.monotone (nearest_mono wide_double large))
  have least : double.units double.leadingBit * double.units (powerOfTen 308) ≤
      3 * (2 ^ double.unitExponent * 2 ^ double.unitExponent) := by decide +kernel
  rw [le_div_iff₀ (one_pos.trans_le (one_le_powerOfTen 308))]
  refine le_trans ?_ three
  rw [value_eq_div, value_eq_div, div_mul_div_comm,
    div_le_iff₀ (mul_pos double.unit_pos double.unit_pos)]
  exact_mod_cast least

/-! ## Scaling -/

section Scaled

variable {c n w : Nat} (positive : 0 < c) (few : c ≤ 10 ^ 17)

include positive few

omit positive in
/-- Up to the largest double, the product of a coefficient and a power is finite. Only the
largest powers come near it. -/
theorem product_finite (small : c * 10 ^ n ≤ largest) (inside : n ≤ 308) :
    double.product (double.nearest c 1) (powerOfTen n) < double.infinity := by
  rcases Nat.lt_or_ge n 291 with below | above
  · have most : double.product (double.nearest (10 ^ 17) 1) (powerOfTen 291) < double.infinity := by
      decide +kernel
    exact Nat.lt_of_le_of_lt
      (product_mono wide_double (nearest_mono wide_double few) (powerOfTen_mono below.le)) most
  · have all : ∀ k ≤ 17, double.product
        (double.nearest (min (largest / 10 ^ (291 + k)) (10 ^ 17)) 1) (powerOfTen (291 + k)) <
          double.infinity := by decide +kernel
    have bound : c ≤ min (largest / 10 ^ n) (10 ^ 17) :=
      Nat.le_min.2 ⟨(Nat.le_div_iff_mul_le (Nat.pow_pos (by decide))).2 small, few⟩
    have finite := all (n - 291) (by omega)
    rw [Nat.add_sub_cancel' above] at finite
    exact Nat.lt_of_le_of_lt
      (product_mono wide_double (nearest_mono wide_double bound) (Nat.le_refl _)) finite

theorem scaled?_ofNat (small : c * 10 ^ n ≤ largest) (rounds : double.Rounds (c * 10 ^ n) w) :
    ∃ v, scaled? c n = some v ∧ v < double.infinity ∧
      Close ((if c ≤ 2 ^ 53 then 0 else 1) + if n ≤ 22 then 0 else 1) v w := by
  have inside : n ≤ 308 := by
    by_contra beyond
    have large := Nat.lt_of_lt_of_le (largest_lt (Nat.lt_of_not_le beyond))
      (Nat.le_mul_of_pos_left _ positive)
    exact Nat.not_le_of_lt large small
  have finite := product_finite few small inside
  refine ⟨_, ?_, finite, ?_⟩
  · show (if n ≤ largestPower then _ else _) = _
    rw [if_pos (show n ≤ largestPower from inside)]
    exact if_neg (Nat.ne_of_lt finite)
  · have near := (approx_coefficient positive few).mul (approx_powerOfTen inside)
    exact close_of_approx near.symm (rounds_product wide_double _ _) rounds

/-- Quotients of coefficients are far from infinity. -/
theorem finite_of_close {v k : Nat} (rounds : double.Rounds (c / 10 ^ n) w) (close : Close k v w)
    (bound : k ≤ 3) : v < double.infinity := by
  have below : w ≤ double.nearest c 1 := by
    have power : (1 : ℚ) ≤ 10 ^ n := one_le_pow₀ (by norm_num)
    exact rounds.le_of_le (rounds_whole wide_double c) (div_le_self (by positivity) power)
  exact Nat.lt_of_le_of_lt (Nat.le_trans close.1 (Nat.add_le_add below bound))
    (nearest_add_three_lt few)

omit positive few in
theorem divided_of_le (inside : n ≤ 308) (a : Nat) :
    divided a n = double.quotient a (powerOfTen n) := by
  rw [divided]
  exact if_pos inside

theorem divided_close (inside : n ≤ 308) (rounds : double.Rounds (c / 10 ^ n) w) :
    Close ((if c ≤ 2 ^ 53 then 0 else 1) + if n ≤ 22 then 0 else 1)
      (divided (double.nearest c 1) n) w := by
  have power := approx_powerOfTen inside
  have near := (approx_coefficient positive few).div power
  rw [divided_of_le inside]
  exact close_of_approx near.symm
    (rounds_quotient wide_double _ (units_pos_of_value power.pos')) rounds

theorem divided_twice (beyond : 308 < n) (inside : n ≤ 324) :
    divided (double.nearest c 1) n =
      double.quotient (double.quotient (double.nearest c 1) (powerOfTen 308))
        (powerOfTen (n - 308)) := by
  have some : double.nearest c 1 ≠ 0 := fun zero => by
    have large := (approx_coefficient positive few).pos'
    rw [zero, value_zero] at large
    exact lt_irrefl _ large
  rw [divided, if_neg (show ¬ n ≤ largestPower from Nat.not_le.2 beyond), if_neg some]
  exact divided_of_le (by show n - 308 ≤ 308; omega) _

omit few in
/-- The first of two quotients lacks the leading bit for the coefficients one and two, for which
there are few exponents. -/
theorem divided_twice_tiny (tiny : c < 3) (beyond : 308 < n) (inside : n ≤ 324)
    (rounds : double.Rounds (c / 10 ^ n) w) :
    Close 2 (double.quotient (double.quotient (double.nearest c 1) (powerOfTen 308))
      (powerOfTen (n - 308))) w := by
  have all : ∀ c < 3, 0 < c → ∀ k ≤ 16,
      double.quotient (double.quotient (double.nearest c 1) (powerOfTen 308)) (powerOfTen k) ≤
        double.nearest c (10 ^ (308 + k)) + 2 ∧
      double.nearest c (10 ^ (308 + k)) ≤
        double.quotient (double.quotient (double.nearest c 1) (powerOfTen 308))
          (powerOfTen k) + 2 := by decide +kernel
  have found := all c tiny positive (n - 308) (Nat.sub_le_of_le_add inside)
  have exact := rounds_nearest wide_double c (Nat.pow_pos (n := n) (show 0 < 10 by decide))
  rw [Nat.cast_pow, Nat.cast_ofNat] at exact
  rwa [Nat.add_sub_cancel' beyond.le, ← rounds.unique exact] at found

/-- Very small exponents take two divisions, and the first quotient is rounded too. -/
theorem divided_twice_close (beyond : 308 < n) (inside : n ≤ 324)
    (rounds : double.Rounds (c / 10 ^ n) w) :
    Close ((if c ≤ 2 ^ 53 then 0 else 1) + 2) (divided (double.nearest c 1) n) w := by
  rw [divided_twice positive few beyond inside]
  rcases Nat.lt_or_ge c 3 with tiny | large
  · rw [if_pos (Nat.le_trans tiny.le (by decide))]
    exact divided_twice_tiny positive tiny beyond inside rounds
  · have power := approx_powerOfTen (n := 308) (Nat.le_refl _)
    have rest := approx_powerOfTen (n := n - 308) (by omega)
    have first := rounds_quotient wide_double (double.nearest c 1) (units_pos_of_value power.pos')
    have coefficient := approx_coefficient positive few
    have finite : double.quotient (double.nearest c 1) (powerOfTen 308) < double.infinity := by
      refine Nat.lt_of_le_of_lt ?_ (nearest_finite few)
      exact first.le_of_le (rounds_value (nearest_le_infinity _ _ _))
        (div_le_self coefficient.pos'.le (one_le_powerOfTen 308))
    have rounded := approx_of_rounds (first_quotient_normal large) first finite
    have near := ((coefficient.div power).trans rounded).div rest
    have small : n - 308 ≤ 22 := by omega
    rw [div_div, ← pow_add, Nat.add_sub_cancel' beyond.le, if_pos small] at near
    exact close_of_approx near.symm
      (rounds_quotient wide_double _ (units_pos_of_value rest.pos')) rounds

end Scaled

/-- The result of a scaling is finite, and close to the double that the decimal is rounded to. -/
theorem scaled?_close {d : Decimal} {w : Nat} (positive : 0 < d.coefficient)
    (few : d.coefficient ≤ 10 ^ 17) (fine : -324 ≤ d.exponent) (small : d.value ≤ largest)
    (rounds : double.Rounds d.value w) :
    ∃ v, scaled? d.coefficient d.exponent = some v ∧ v < double.infinity ∧
      Close d.roundings v w := by
  obtain ⟨c, e⟩ := d
  dsimp only at positive few fine
  unfold Decimal.roundings
  cases e with
  | ofNat n =>
    rw [Decimal.value_ofNat] at small rounds
    obtain ⟨v, scaled, finite, close⟩ := scaled?_ofNat positive few (Nat.cast_le.1 small)
      (by rwa [Nat.cast_mul, Nat.cast_pow, Nat.cast_ofNat] at rounds)
    exact ⟨v, scaled, finite, close⟩
  | negSucc m =>
    rw [Decimal.value_negSucc, Nat.cast_pow, Nat.cast_ofNat] at rounds
    refine ⟨_, rfl, ?_⟩
    rcases Nat.lt_or_ge 308 (m + 1) with beyond | inside
    · have close := divided_twice_close positive few beyond (by omega) rounds
      have down : Int.negSucc m < -308 := by omega
      have large : ¬ (Int.negSucc m).natAbs ≤ 22 := by simp only [Int.natAbs_negSucc]; omega
      simp only [if_pos down, if_neg large]
      refine ⟨finite_of_close positive few rounds close (by split <;> omega), close⟩
    · have close := divided_close positive few inside rounds
      have down : ¬ Int.negSucc m < -308 := by omega
      simp only [if_neg down, Int.natAbs_negSucc, Nat.succ_eq_add_one, Nat.add_zero]
      exact ⟨finite_of_close positive few rounds close (by split <;> split <;> omega), close⟩

end Gremlin.Number
