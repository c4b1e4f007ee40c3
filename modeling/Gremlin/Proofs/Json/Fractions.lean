import Gremlin.Proofs.Json.Written
import Gremlin.Proofs.Number.DoubleText
import Gremlin.Proofs.Number.Scaled

/-!
# The numerals of doubles are read

The numeral that JSON has for a finite double has a point or an exponent. Its digits fit into the
significand, so that none is dropped and only the scaling decides what double is read. Scaling
may miss the double that was written, but only by a few steps.

Results:
1. `readNumeral_json`: the decimal that a reader makes of the numeral.
2. `coefficient_written_small`, `exponent_written_small`: a significand has room for the digits that
   are written for a double, and an exponent for theirs.
3. `scaled?_written`: the double that is read is close to the one that was written.
-/

namespace Gremlin

open Number (Decimal Layout Tie digits zeros exponentText pointed double)

/-! ## Readers -/

namespace Json

section Numerals

variable {negative : Bool} {whole rest : List Char}

/-- What follows the digits before the point decides how the number goes on. -/
theorem readNumeral_whole (isWhole : IsWhole whole) : startsWithDigit rest = false →
    readNumeral negative (whole ++ rest) =
      match rest with
      | '.' :: behind =>
        (readFraction negative (collect significandLimit 0 whole).1
          (collect significandLimit 0 whole).2.length behind).map fun (d, rest) => (.real d, rest)
      | 'e' :: behind | 'E' :: behind =>
        (readExponent negative (collect significandLimit 0 whole).1
          (collect significandLimit 0 whole).2.length behind).map fun (d, rest) => (.real d, rest)
      | behind =>
        if (collect significandLimit 0 whole).2.isEmpty then
          .ok (.ofWhole negative (collect significandLimit 0 whole).1, behind)
        else
          (finishNumber negative (collect significandLimit 0 whole).1
            (collect significandLimit 0 whole).2.length behind).map
              fun (d, rest) => (.real d, rest) := by
  intro stop
  have all := isWhole.1.2
  have run : digitRun (whole ++ rest) = whole := digitRun_append all stop
  have behind : behindDigits (whole ++ rest) = rest := behindDigits_append all stop
  obtain ⟨c, tail, rfl⟩ := List.exists_cons_of_ne_nil isWhole.1.1
  have digit : ¬(!c.isDigit) = true := by simp [all c List.mem_cons_self]
  rw [List.cons_append] at run behind ⊢
  have taken : readNumeral negative (c :: (tail ++ rest)) = _ :=
    (if_neg digit).trans (if_neg (isWhole.zero_alone stop))
  rw [run, behind] at taken
  exact taken

/-- Digits that fit are taken, and what follows them decides how the number goes on. -/
theorem readNumeral_behind (isWhole : IsWhole whole)
    (fits : Nat.ofDigitChars 10 whole 0 ≤ significandLimit) : startsWithDigit rest = false →
    readNumeral negative (whole ++ rest) =
      match rest with
      | '.' :: behind =>
        (readFraction negative (Nat.ofDigitChars 10 whole 0) 0 behind).map
          fun (d, rest) => (.real d, rest)
      | 'e' :: behind | 'E' :: behind =>
        (readExponent negative (Nat.ofDigitChars 10 whole 0) 0 behind).map
          fun (d, rest) => (.real d, rest)
      | behind => .ok (.ofWhole negative (Nat.ofDigitChars 10 whole 0), behind) := by
  intro stop
  rw [readNumeral_whole isWhole stop, collect_eq fits]
  rfl

theorem readFraction_digits {n : Nat} {fraction : List Char} (isDigits : IsDigits fraction)
    (fits : Nat.ofDigitChars 10 fraction n ≤ significandLimit)
    (stop : startsWithDigit rest = false) : readFraction negative n 0 (fraction ++ rest) =
      readScale negative (Nat.ofDigitChars 10 fraction n) (-fraction.length) rest := by
  rw [readFraction, if_pos (startsWithDigit_append isDigits rest), digitRun_append isDigits.2 stop,
    behindDigits_append isDigits.2 stop]
  dsimp only
  rw [collect_eq fits]
  simp

theorem readNumeral_point {fraction : List Char} (isWhole : IsWhole whole)
    (isDigits : IsDigits fraction)
    (fits : Nat.ofDigitChars 10 (whole ++ fraction) 0 ≤ significandLimit)
    (stop : startsWithDigit rest = false) :
    readNumeral negative (whole ++ '.' :: (fraction ++ rest)) =
      (readScale negative (Nat.ofDigitChars 10 (whole ++ fraction) 0) (-fraction.length) rest).map
        fun (d, rest) => (.real d, rest) := by
  rw [Nat.ofDigitChars_append] at fits ⊢
  rw [readNumeral_behind isWhole (Nat.le_trans (le_ofDigitChars _ _) fits) rfl]
  exact congrArg (Except.map _) (readFraction_digits isDigits fits stop)

/-- The exponent is added to that of the digits before it. -/
theorem readExponent_exponentText {n : Nat} {start k : Int} (small : k.natAbs ≤ exponentLimit)
    (stop : startsWithDigit rest = false) :
    readExponent negative n start (exponentText k ++ rest) =
      finishNumber negative n (start + k) rest := by
  have read (m : Nat) (small : m ≤ exponentLimit) (down : Bool) (cs : List Char)
      (sign : exponentSign cs = (down, digits m ++ rest)) :
      readExponent negative n start cs =
        finishNumber negative n (if down then start - m else start + m) rest := by
    have all := (isWhole_digits m).1
    have value := Number.ofDigitChars_digits m
    have run : digitRun (digits m ++ rest) = digits m := digitRun_append all.2 stop
    have behind : behindDigits (digits m ++ rest) = rest := behindDigits_append all.2 stop
    have collected : collect exponentLimit 0 (digits m) = (_, []) :=
      collect_eq (value.symm ▸ small)
    obtain ⟨c, tail, split, digit⟩ := Number.exists_digit_of_digits m
    rw [value] at collected
    rw [split] at run behind sign collected
    rw [List.cons_append] at run behind sign
    rw [readExponent, sign]
    dsimp only
    rw [if_neg (by simp [digit]), run, behind, collected]
  cases k with
  | ofNat m => exact read m small false _ rfl
  | negSucc m =>
    rw [read (m + 1) small true _ rfl, if_pos rfl, Int.negSucc_eq]
    rfl

theorem readScale_ended {n : Nat} {k : Int} (ended : Ended rest) :
    readScale negative n k rest = finishNumber negative n k rest := by
  unfold readScale
  split
  · exact absurd rfl (ended _ rfl).2.2.1
  · exact absurd rfl (ended _ rfl).2.2.2
  · rfl

/-- A number with a point and without an exponent. -/
theorem readNumeral_pointed {cs : List Char} (form : Number.IsPointed cs) {d : Decimal}
    (parsed : Decimal.parse? cs = some d) (fits : d.coefficient ≤ significandLimit)
    (ended : Ended rest) : readNumeral negative (cs ++ rest) =
      (finishNumber negative d.coefficient d.exponent rest).map
        fun (d, rest) => (.real d, rest) := by
  obtain ⟨whole, fraction, isWhole, tail, rfl⟩ := form
  have isDigits : IsDigits fraction := by
    rcases tail with rfl | trimmed
    · exact ⟨by simp, by simp⟩
    · exact trimmed.isDigits
  have read := Number.parse?_fraction isWhole.1 isDigits.2 Number.stopsDigits_nil
  rw [List.append_nil, parsed, Number.exponent?, Option.map_some, Int.zero_sub] at read
  obtain rfl := Option.some.inj read
  rw [List.append_assoc, List.cons_append,
    readNumeral_point isWhole isDigits fits ended.startsWithDigit, readScale_ended ended]

/-- A number with an exponent and without a point. -/
theorem readNumeral_exponent {k : Int} (isWhole : IsWhole whole)
    (fits : Nat.ofDigitChars 10 whole 0 ≤ significandLimit) (small : k.natAbs ≤ exponentLimit)
    (ended : Ended rest) : readNumeral negative (whole ++ 'e' :: (exponentText k ++ rest)) =
      (finishNumber negative (Nat.ofDigitChars 10 whole 0) k rest).map
        fun (d, rest) => (.real d, rest) := by
  refine (readNumeral_behind isWhole fits rfl).trans (congrArg (Except.map _) ?_)
  rw [readExponent_exponentText small ended.startsWithDigit, Int.zero_add]

/-- A number with a point and an exponent. -/
theorem readNumeral_point_exponent {fraction : List Char} {k : Int} (isWhole : IsWhole whole)
    (isDigits : IsDigits fraction)
    (fits : Nat.ofDigitChars 10 (whole ++ fraction) 0 ≤ significandLimit)
    (small : k.natAbs ≤ exponentLimit) (ended : Ended rest) :
    readNumeral negative (whole ++ '.' :: (fraction ++ 'e' :: (exponentText k ++ rest))) =
      (finishNumber negative (Nat.ofDigitChars 10 (whole ++ fraction) 0) (-fraction.length + k)
        rest).map fun (d, rest) => (.real d, rest) := by
  refine (readNumeral_point isWhole isDigits fits rfl).trans (congrArg (Except.map _) ?_)
  exact readExponent_exponentText small ended.startsWithDigit

/-- One digit, the others behind a point, and an exponent. -/
theorem readNumeral_scientific {n : Nat} (nonzero : n ≠ 0) {k : Int} (fits : n ≤ significandLimit)
    (small : (k + (digits n).length - 1).natAbs ≤ exponentLimit)
    (ended : Ended rest) : readNumeral negative (Layout.scientificText (digits n) k ++ rest) =
      (finishNumber negative n k rest).map fun (d, rest) => (.real d, rest) := by
  have value := Number.ofDigitChars_digits n
  have all := (isWhole_digits n).1.2
  obtain ⟨c, ds, split, digit⟩ := Number.exists_digit_of_digits n
  have isWhole : IsWhole [c] :=
    Number.isWhole_digit digit (Number.ne_zero_of_digits_eq_cons nonzero split)
  rw [split] at value small all ⊢
  rw [List.length_cons, Nat.cast_succ, ← Int.add_assoc, Int.add_sub_cancel] at small
  rw [Number.scientificText_cons]
  rw [← value] at fits
  cases ds with
  | nil =>
    have read : readNumeral negative _ = _ := readNumeral_exponent isWhole fits small ended
    rw [value, List.length_nil, Int.natCast_zero, Int.add_zero] at read
    simpa [pointed] using read
  | cons d ds =>
    have isDigits : IsDigits (d :: ds) :=
      ⟨by simp, fun e member => all e (List.mem_cons_of_mem _ member)⟩
    have read : readNumeral negative _ = _ :=
      readNumeral_point_exponent isWhole isDigits fits small ended
    have places : -((d :: ds).length : Int) + (k + (d :: ds).length) = k := by omega
    rw [List.singleton_append, List.singleton_append, value, places] at read
    simpa [pointed] using read

end Numerals

/-- The numeral of a decimal in JSON, if its parts are small. -/
theorem readNumeral_json {negative : Bool} {rest : List Char} {d : Decimal} (reduced : d.Reduced)
    (fits : d.inJson.coefficient ≤ significandLimit)
    (small : (d.exponent + (digits d.coefficient).length - 1).natAbs ≤ exponentLimit)
    (ended : Ended rest) : readNumeral negative (Layout.json.write d ++ rest) =
      (finishNumber negative d.inJson.coefficient d.inJson.exponent rest).map
        fun (d, rest) => (.real d, rest) := by
  cases positional : Layout.json.positional ((digits d.coefficient).length + d.exponent) with
  | true =>
    exact readNumeral_pointed (Number.isPointed_write reduced positional) (Number.parse?_json d)
      fits ended
  | false =>
    have same : d.inJson = d := by
      obtain ⟨n, k⟩ := d
      cases k with
      | ofNat k => exact if_neg (by rw [← Bool.not_eq_false]; exact not_not.2 positional)
      | negSucc k => rfl
    have nonzero : d.coefficient ≠ 0 := by
      rcases reduced with rfl | last
      · exact absurd positional (by decide)
      · exact Number.ne_zero_of_mod_ten last
    have text : Layout.json.write d = Layout.scientificText (digits d.coefficient) d.exponent := by
      unfold Layout.write
      rw [if_neg (by simp [positional])]
    rw [same] at fits ⊢
    rw [text]
    exact readNumeral_scientific nonzero fits small ended

end Json

/-! ## The decimals that are written -/

namespace Number

open Format

section Written

variable {w : Nat} (finite : w < double.infinity) (nonzero : w ≠ 0) (tie : Tie)

include nonzero in
theorem coefficient_double_lt : (double.shortest tie w).coefficient < 10 ^ 17 := by
  have bound := coefficient_shortest_mul_le (f := double) tie nonzero
  have mantissa := double.mantissa_lt w
  have bit : double.leadingBit = 2 ^ 52 := rfl
  unfold reach at bound
  split at bound
  · next start =>
    have leading := (isBinadeStart_iff.1 start).2
    omega
  · omega

include finite in
theorem shortest_le_largest : (double.shortest Layout.json.tie w).value ≤ largest := by
  have top : double.value (double.infinity - 1) = largest := value_of_units (by decide +kernel)
  rcases Nat.lt_or_ge (w + 1) double.infinity with below | last
  · have rounds := rounds_shortest (f := double) (by decide) finite Layout.json.tie
    calc
      (double.shortest Layout.json.tie w).value ≤ double.midpoint w := rounds.le_midpoint finite
      _ ≤ double.value (w + 1) := (midpoint_lt_value w).le
      _ ≤ double.value (double.infinity - 1) :=
        value_strictMono.monotone (Nat.le_sub_one_of_lt below)
      _ = largest := top
  · obtain rfl : w = double.infinity - 1 := by omega
    have written : double.shortest Layout.json.tie (double.infinity - 1) =
        ⟨17976931348623157, .ofNat 292⟩ := by decide +kernel
    have less : 17976931348623157 * 10 ^ 292 ≤ largest := by decide +kernel
    rw [written, Decimal.value_ofNat]
    exact Nat.cast_le.2 less

theorem ten_zpow (n : Nat) : (10 : ℚ) ^ (n : Int) = ((10 ^ n : Nat) : ℚ) := by
  rw [zpow_natCast, Nat.cast_pow, Nat.cast_ofNat]

theorem fine_double : (10 : ℚ) ^ (-(324 : Nat) : Int) < double.step 0 := by
  have less : 2 ^ double.unitExponent < 10 ^ 324 := by decide +kernel
  have power : (0 : ℚ) < ((10 ^ 324 : Nat) : ℚ) := double.unit_pos.trans (Nat.cast_lt.2 less)
  have step : double.step 0 = 1 / ((2 ^ double.unitExponent : Nat) : ℚ) := by
    rw [Nat.cast_pow, Nat.cast_ofNat]
    rfl
  rw [zpow_neg, ten_zpow, step, inv_eq_one_div, div_lt_div_iff₀ power double.unit_pos, one_mul,
    one_mul]
  exact Nat.cast_lt.2 less

include finite nonzero in
theorem shortest_exponent : -324 ≤ (double.shortest tie w).exponent :=
  neg_le_exponent_shortest (by decide) tie finite fine_double nonzero

/-- The zeros of a whole number do not make it too long. -/
theorem coefficient_inJson_le {d : Decimal} (few : d.coefficient < 10 ^ 17) :
    d.inJson.coefficient ≤ 10 ^ 17 := by
  obtain ⟨n, k⟩ := d
  cases k with
  | negSucc k => exact few.le
  | ofNat k =>
    unfold Decimal.inJson
    dsimp only
    split
    · next positional =>
      have both : (decide (-5 < ((digits n).length : Int) + k) &&
          decide (((digits n).length : Int) + k ≤ 16)) = true := positional
      have short := of_decide_eq_true (Bool.and_eq_true_iff.1 both).2
      calc
        n * 10 ^ (k + 1) ≤ 10 ^ (digits n).length * 10 ^ (k + 1) :=
          Nat.mul_le_mul_right _ (lt_ten_pow_digits n).le
        _ = 10 ^ ((digits n).length + (k + 1)) := (Nat.pow_add _ _ _).symm
        _ ≤ 10 ^ 17 := Nat.pow_le_pow_right (by decide) (by omega)
    · exact few.le

include finite in
/-- The digits that are written fit into a significand. -/
theorem coefficient_written_small :
    (double.shortest Layout.json.tie w).inJson.coefficient ≤ Json.significandLimit := by
  by_cases zero : w = 0
  · subst zero
    decide
  · exact Nat.le_trans (coefficient_inJson_le (coefficient_double_lt zero Layout.json.tie))
      (by decide)

theorem le_exponent_inJson {d : Decimal} (fine : -324 ≤ d.exponent) :
    -324 ≤ d.inJson.exponent := by
  obtain ⟨n, k⟩ := d
  cases k with
  | negSucc k => exact fine
  | ofNat k =>
    unfold Decimal.inJson
    dsimp only
    split
    · show (-324 : Int) ≤ -1
      decide
    · exact fine

include finite in
/-- The exponent that is written has few digits. -/
theorem exponent_written_small : ((double.shortest Layout.json.tie w).exponent +
    (digits (double.shortest Layout.json.tie w).coefficient).length - 1).natAbs ≤
      Json.exponentLimit := by
  by_cases zero : w = 0
  · subst zero
    decide
  · have coefficient : (double.shortest Layout.json.tie w).coefficient ≠ 0 := fun none =>
      coefficient_shortest_mod_ten (by decide) finite Layout.json.tie zero (by rw [none])
    have least := shortest_exponent finite zero Layout.json.tie
    have below : (double.shortest Layout.json.tie w).value < 10 ^ ((309 : Nat) : Int) := by
      refine (shortest_le_largest finite).trans_lt ?_
      rw [ten_zpow]
      exact Nat.cast_lt.2 (largest_lt (by decide))
    have most := (Decimal.value_lt_iff coefficient _).1 below
    unfold Json.exponentLimit
    omega

include finite in
/-- The decimal that JSON has for a double is scaled to a double that is close to it. -/
theorem scaled?_written :
    ∃ v, scaled? (double.shortest Layout.json.tie w).inJson.coefficient
        (double.shortest Layout.json.tie w).inJson.exponent = some v ∧
      v < double.infinity ∧
      Close (double.shortest Layout.json.tie w).inJson.roundings v w := by
  by_cases zero : w = 0
  · subst zero
    exact ⟨0, by decide +kernel, by decide, Nat.zero_le _, Nat.zero_le _⟩
  · have rounds := rounds_shortest (f := double) (by decide) finite Layout.json.tie
    have small := shortest_le_largest finite
    have few := coefficient_inJson_le (coefficient_double_lt zero Layout.json.tie)
    have fine := le_exponent_inJson (shortest_exponent finite zero Layout.json.tie)
    rw [← value_inJson] at rounds small
    refine scaled?_close (Nat.pos_of_ne_zero fun none => ?_) few fine small rounds
    -- A coefficient of zero would be rounded to zero.
    rw [Decimal.value, none, Nat.cast_zero, zero_mul, ← value_zero double] at rounds
    exact zero (rounds.unique (rounds_value (Nat.zero_le _)))

end Written

end Number

end Gremlin
