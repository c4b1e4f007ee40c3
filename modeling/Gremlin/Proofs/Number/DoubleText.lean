import Gremlin.Json.Encode
import Gremlin.Proofs.Number.Texts

/-!
# The two texts of a double

A finite double is written by the shortest decimal of its magnitude, in a layout for statements
and in another one for JSON. Each of the two texts stands for the double alone, and neither has
more digits than it needs.

Results:
1. `positional_shortest`: the magnitudes that JSON writes without an exponent.
2. `StandsFor.unique`: a numeral stands for one double.
3. `texts_exact`: form, value and length of both texts.
-/

namespace Gremlin

open Json (IsNumeral)

/-! ## Signed texts -/

namespace Number

/-- A numeral without its sign. -/
def unsigned : List Char → List Char
  | '-' :: cs => cs
  | cs => cs

namespace Format

/-- The text of a sign and the shortest decimal of a magnitude. -/
def signedText (f : Format) (layout : Layout) (negative : Bool) (w : Nat) : List Char :=
  (if negative then ['-'] else []) ++ layout.write (f.shortest layout.tie w)

/-- The sign and the magnitude that a numeral stands for: the sign is written in front, and the
exact decimal behind it is rounded to the magnitude. -/
structure StandsFor (f : Format) (cs : List Char) (negative : Bool) (w : Nat) : Prop where
  sign : negative = (cs.head? == some '-')
  nearest : ∃ e, Decimal.parse? (unsigned cs) = some e ∧ f.Rounds e.value w

variable {f : Format}

theorem StandsFor.unique {cs : List Char} {a b : Bool} {v w : Nat} (left : f.StandsFor cs a v)
    (right : f.StandsFor cs b w) : a = b ∧ v = w := by
  obtain ⟨sign, e, read, rounds⟩ := left
  obtain ⟨sign', e', read', rounds'⟩ := right
  obtain rfl : e = e' := Option.some.inj (read.symm.trans read')
  exact ⟨sign.trans sign'.symm, rounds.unique rounds'⟩

section Written

variable {layout : Layout} {negative : Bool} {w : Nat}
  (starts : ∃ c cs, layout.write (f.shortest layout.tie w) = c :: cs ∧ c.isDigit = true)

include starts

theorem unsigned_signedText :
    unsigned (f.signedText layout negative w) = layout.write (f.shortest layout.tie w) := by
  obtain ⟨c, cs, split, digit⟩ := starts
  unfold signedText
  rw [split]
  cases negative with
  | true => rfl
  | false =>
    show unsigned (c :: cs) = c :: cs
    unfold unsigned
    split
    · next minus => exact absurd (List.cons.inj minus).1 (ne_minus_of_isDigit digit)
    · rfl

theorem head_signedText : negative = ((f.signedText layout negative w).head? == some '-') := by
  obtain ⟨c, cs, split, digit⟩ := starts
  unfold signedText
  rw [split]
  cases negative with
  | true => rfl
  | false =>
    have other : (c == '-') = false := beq_eq_false_iff_ne.2 (ne_minus_of_isDigit digit)
    exact other.symm

theorem standsFor_signedText (wide : 0 < f.fractionBits) (finite : w < f.infinity) {e : Decimal}
    (read : Decimal.parse? (layout.write (f.shortest layout.tie w)) = some e)
    (same : e.value = (f.shortest layout.tie w).value) :
    f.StandsFor (f.signedText layout negative w) negative w := by
  refine ⟨head_signedText starts, e, (unsigned_signedText starts).symm ▸ read, ?_⟩
  rw [same]
  exact rounds_shortest wide finite layout.tie

end Written

section Plain

variable {w : Nat} (wide : 0 < f.fractionBits) (finite : w < f.infinity) (negative : Bool)

theorem unsigned_plain :
    unsigned (f.signedText .plain negative w) = Layout.plain.write (f.shortest .up w) :=
  unsigned_signedText (exists_digit_of_write _)

include wide finite

theorem reduced_shortest (tie : Tie) : (f.shortest tie w).Reduced := by
  by_cases zero : w = 0
  · exact .inl (if_pos zero)
  · exact .inr (coefficient_shortest_mod_ten wide finite tie zero)

theorem isPlain_signedText : IsPlain (unsigned (f.signedText .plain negative w)) := by
  rw [unsigned_plain]
  exact isPlain_write (reduced_shortest wide finite .up)

theorem standsFor_plain : f.StandsFor (f.signedText .plain negative w) negative w := by
  obtain ⟨e, read, same⟩ := parse?_plain (f.shortest .up w)
  exact standsFor_signedText (exists_digit_of_write _) wide finite read same

/-- The sign is not a digit, and no decimal of the magnitude has fewer digits. -/
theorem significantDigits_signedText {e : Decimal} (rounds : f.Rounds e.value w) :
    significantDigits (f.signedText .plain negative w) ≤ (digits e.coefficient).length := by
  have few := (significantDigits_write (reduced_shortest wide finite .up)).trans
    (length_digits_shortest_le wide finite .up rounds)
  cases negative with
  | true => exact few
  | false => exact few

end Plain

end Format

/-! ## Where the point stands -/

theorem Decimal.value_lt_ten_zpow (d : Decimal) :
    d.value < 10 ^ ((digits d.coefficient).length + d.exponent) := by
  have few : (d.coefficient : ℚ) < 10 ^ (digits d.coefficient).length := by
    exact_mod_cast lt_ten_pow_digits d.coefficient
  rw [zpow_add₀ (by norm_num), zpow_natCast, Decimal.value]
  gcongr

theorem Decimal.ten_zpow_le_value {d : Decimal} (nonzero : d.coefficient ≠ 0) :
    10 ^ ((digits d.coefficient).length + d.exponent - 1) ≤ d.value := by
  obtain ⟨n, length⟩ := Nat.exists_eq_succ_of_ne_zero (digits_length_pos d.coefficient).ne'
  have many : (10 : ℚ) ^ n ≤ d.coefficient := by
    exact_mod_cast ten_pow_le_of_lt_digits nonzero (length ▸ Nat.lt_succ_self n)
  have first : ((n.succ : Nat) : Int) + d.exponent - 1 = n + d.exponent := by omega
  rw [length, first, zpow_add₀ (by norm_num), zpow_natCast, Decimal.value]
  gcongr

/-- The power of ten behind the first digit. -/
theorem Decimal.value_lt_iff {d : Decimal} (nonzero : d.coefficient ≠ 0) (k : Int) :
    d.value < 10 ^ k ↔ (digits d.coefficient).length + d.exponent ≤ k := by
  constructor
  · intro below
    have less := (Decimal.ten_zpow_le_value nonzero).trans_lt below
    have := (zpow_lt_zpow_iff_right₀ (by norm_num)).1 less
    omega
  · intro within
    exact d.value_lt_ten_zpow.trans_le (zpow_le_zpow_right₀ (by norm_num) within)

/-- A bound that is written shortest for the least magnitude above it divides the shortest
decimals as it divides the magnitudes. -/
theorem shortest_lt_iff {f : Format} (wide : 0 < f.fractionBits) {tie : Tie} {k w : Nat} {b : ℚ}
    (written : (f.shortest tie (k + 1)).value = b) (below : f.value k < b)
    (above : b ≤ f.value (k + 1)) (known : k + 1 < f.infinity) (finite : w < f.infinity) :
    (f.shortest tie w).value < b ↔ f.value w < b := by
  have rounds := Format.rounds_shortest wide finite tie
  have bound : f.Rounds b (k + 1) := written ▸ Format.rounds_shortest wide known tie
  constructor
  · intro less
    have within : w ≤ k := by
      refine Nat.le_of_lt_succ (Nat.lt_of_le_of_ne (rounds.le_of_le bound less.le) ?_)
      rintro rfl
      exact less.ne written
    exact (Format.value_strictMono.monotone within).trans_lt below
  · intro less
    by_contra more
    have beyond := bound.le_of_le rounds (not_lt.1 more)
    exact absurd (less.trans_le above) (not_lt.2 (Format.value_strictMono.monotone beyond))

/-- The upper bound of positional notation in JSON is a double. -/
theorem shortest_lt_large {w : Nat} (finite : w < double.infinity) :
    (double.shortest Layout.json.tie w).value < 10 ^ (16 : Int) ↔
      double.value w < 10 ^ (16 : Int) := by
  have written : double.shortest Layout.json.tie (0x4341c37937e07fff + 1) = ⟨1, 16⟩ := by
    decide +kernel
  have units : double.units (0x4341c37937e07fff + 1) = 10 ^ 16 * 2 ^ double.unitExponent := by
    decide +kernel
  have exact : double.value (0x4341c37937e07fff + 1) = 10 ^ (16 : Int) := by
    rw [Format.value_of_units units]
    norm_num
  refine shortest_lt_iff (by decide) (by rw [written]; simp [Decimal.value]) ?_ exact.ge
    (by decide +kernel) finite
  rw [← exact]
  exact Format.value_strictMono (Nat.lt_succ_self _)

/-- The lower one lies between two doubles. -/
theorem shortest_lt_small {w : Nat} (finite : w < double.infinity) :
    (double.shortest Layout.json.tie w).value < 10 ^ (-5 : Int) ↔
      double.value w < 10 ^ (-5 : Int) := by
  have written : double.shortest Layout.json.tie (0x3ee4f8b588e368f0 + 1) = ⟨1, -5⟩ := by
    decide +kernel
  have below : double.units 0x3ee4f8b588e368f0 * 10 ^ 5 < 2 ^ double.unitExponent := by
    decide +kernel
  have above : 2 ^ double.unitExponent ≤ double.units (0x3ee4f8b588e368f0 + 1) * 10 ^ 5 := by
    decide +kernel
  have fifth : (10 : ℚ) ^ (-5 : Int) = 1 / ((10 ^ 5 : Nat) : ℚ) := by norm_num
  refine shortest_lt_iff (by decide) (by rw [written]; simp [Decimal.value]) ?_ ?_
    (by decide +kernel) finite
  · rw [Format.value_eq_div, fifth, div_lt_div_iff₀ double.unit_pos (by norm_num), one_mul]
    exact_mod_cast below
  · rw [Format.value_eq_div, fifth, div_le_div_iff₀ (by norm_num) double.unit_pos, one_mul]
    exact_mod_cast above

/-- JSON has an exponent for what is less than `1e-5` and for `1e16` and more. -/
theorem positional_shortest {w : Nat} (finite : w < double.infinity) :
    Layout.json.positional ((digits (double.shortest Layout.json.tie w).coefficient).length +
        (double.shortest Layout.json.tie w).exponent) = true ↔
      w = 0 ∨ 10 ^ (-5 : Int) ≤ double.value w ∧ double.value w < 10 ^ (16 : Int) := by
  by_cases zero : w = 0
  · subst zero
    exact iff_of_true (by decide) (.inl rfl)
  · have large := shortest_lt_large finite
    have small := shortest_lt_small finite
    have nonzero : (double.shortest Layout.json.tie w).coefficient ≠ 0 := fun none =>
      Format.coefficient_shortest_mod_ten (by decide) finite Layout.json.tie zero (by rw [none])
    rw [Decimal.value_lt_iff nonzero] at large small
    rw [← large, ← not_lt, ← small]
    show (decide (-5 < _) && decide (_ ≤ 16)) = true ↔ _
    simp [zero]

/-! ## Doubles -/

theorem exists_digit_of_isNumeral {cs : List Char} (form : IsNumeral cs) :
    ∃ c rest, cs = c :: rest ∧ c.isDigit = true := by
  obtain ⟨whole, fraction, power, ⟨⟨nonempty, all⟩, -⟩, -, -, rfl⟩ := form
  obtain ⟨c, ds, rfl⟩ := List.exists_cons_of_ne_nil nonempty
  exact ⟨c, ds ++ (fraction ++ power), rfl, all c List.mem_cons_self⟩

section Compact

variable {w : Nat} (finite : w < double.infinity)

include finite

/-- The text in JSON is written with a point or with an exponent. -/
theorem json_form :
    if w = 0 ∨ 10 ^ (-5 : Int) ≤ double.value w ∧ double.value w < 10 ^ (16 : Int)
    then IsPointed (Layout.json.write (double.shortest Layout.json.tie w))
    else IsScientific (Layout.json.write (double.shortest Layout.json.tie w)) := by
  have reduced := Format.reduced_shortest (by decide) finite Layout.json.tie
  have positional := positional_shortest finite
  split
  · next inside => exact isPointed_write reduced (positional.2 inside)
  · next outside => exact isScientific_write reduced (Bool.eq_false_iff.2 (outside ∘ positional.1))

theorem isNumeral_json : IsNumeral (Layout.json.write (double.shortest Layout.json.tie w)) := by
  have form := json_form finite
  split at form
  · exact form.isNumeral
  · exact form.isNumeral

end Compact

end Number

namespace Double

open Number (Decimal digits unsigned significantDigits IsPlain IsPointed IsScientific)

variable {d : Double} (finite : d.isFinite = true)

include finite

theorem toList_text : d.text.toList = Number.double.signedText .plain d.isNegative d.magnitude := by
  have less : d.magnitude < Number.double.infinity := of_decide_eq_true finite
  have number : d.isNaN = false := decide_eq_false (Nat.lt_asymm less)
  have bounded : d.isInfinite = false := beq_eq_false_iff_ne.2 (Nat.ne_of_lt less)
  rw [text, number, bounded]
  exact String.toList_ofList

theorem toList_json : d.json.toList = Number.double.signedText .json d.isNegative d.magnitude := by
  rw [json, if_pos finite]
  exact String.toList_ofList

example : (⟨0x8000000000000000⟩ : Double).text = "-0" := by decide +kernel
example : (⟨0x8000000000000000⟩ : Double).json = "-0.0" := by decide +kernel

theorem unsigned_json : unsigned d.json.toList =
    Number.Layout.json.write (Number.double.shortest Number.Layout.json.tie d.magnitude) := by
  rw [toList_json finite]
  exact Number.Format.unsigned_signedText
    (Number.exists_digit_of_isNumeral (Number.isNumeral_json (of_decide_eq_true finite)))

theorem standsFor_json : Number.double.StandsFor d.json.toList d.isNegative d.magnitude := by
  have less : d.magnitude < Number.double.infinity := of_decide_eq_true finite
  rw [toList_json finite]
  exact Number.Format.standsFor_signedText
    (Number.exists_digit_of_isNumeral (Number.isNumeral_json less)) (by decide) less
    (Number.parse?_json _) (Number.value_inJson _)

theorem standsFor_text : Number.double.StandsFor d.text.toList d.isNegative d.magnitude := by
  rw [toList_text finite]
  exact Number.Format.standsFor_plain (by decide) (of_decide_eq_true finite) _

omit finite in
/-- A numeral stands for one double. -/
theorem eq_of_standsFor {cs : List Char} {e : Double}
    (left : Number.double.StandsFor cs d.isNegative d.magnitude)
    (right : Number.double.StandsFor cs e.isNegative e.magnitude) : d = e := by
  obtain ⟨sign, magnitude⟩ := left.unique right
  rw [← ofMagnitude_magnitude d, ← ofMagnitude_magnitude e, sign, magnitude]

/-- The text of a finite double in a statement has no exponent and no needless zero, the one in
JSON is a number of the JSON grammar, with a point or with an exponent. Both stand for the double
and for no other one, and the text in a statement has no more significant digits than any decimal
that is rounded to the double. -/
theorem texts_exact (q : Quoting) :
    (IsPlain (unsigned ((Value.double d).text q).toList) ∧
      Number.double.StandsFor ((Value.double d).text q).toList d.isNegative d.magnitude ∧
      ∀ e : Decimal, Number.double.Rounds e.value d.magnitude →
        significantDigits ((Value.double d).text q).toList ≤ (digits e.coefficient).length) ∧
    (IsNumeral (unsigned d.json.toList) ∧
      Number.double.StandsFor d.json.toList d.isNegative d.magnitude ∧
      if d.magnitude = 0 ∨ 10 ^ (-5 : Int) ≤ Number.double.value d.magnitude ∧
          Number.double.value d.magnitude < 10 ^ (16 : Int)
      then IsPointed (unsigned d.json.toList) else IsScientific (unsigned d.json.toList)) ∧
    ∀ e : Double, e.isFinite = true →
      (Value.double e).text q = (Value.double d).text q ∨ e.json = d.json → e = d := by
  have less : d.magnitude < Number.double.infinity := of_decide_eq_true finite
  have text : ((Value.double d).text q).toList = _ := toList_text finite
  have wide : 0 < Number.double.fractionBits := by decide
  refine ⟨⟨?_, standsFor_text finite, fun e rounds => ?_⟩, ⟨?_, standsFor_json finite, ?_⟩, ?_⟩
  · rw [text]
    exact Number.Format.isPlain_signedText wide less _
  · rw [text]
    exact Number.Format.significantDigits_signedText wide less _ rounds
  · rw [unsigned_json finite]
    exact Number.isNumeral_json less
  · rw [unsigned_json finite]
    exact Number.json_form less
  · rintro e finite' (same | same)
    · change e.text = d.text at same
      exact eq_of_standsFor (standsFor_text finite') (same ▸ standsFor_text finite)
    · exact eq_of_standsFor (standsFor_json finite') (same ▸ standsFor_json finite)

omit finite in
/-- Minus one tenth, whose two texts are the same. -/
theorem texts_exact_tenth :
    (⟨0xbfb999999999999a⟩ : Double).text = "-0.1" ∧
    (⟨0xbfb999999999999a⟩ : Double).json = "-0.1" ∧
    Number.double.StandsFor "-0.1".toList true 0x3fb999999999999a ∧
    ∀ e : Double, e.isFinite = true → e.text = "-0.1" ∨ e.json = "-0.1" →
      e = ⟨0xbfb999999999999a⟩ := by
  have text : (⟨0xbfb999999999999a⟩ : Double).text = "-0.1" := by decide +kernel
  have json : (⟨0xbfb999999999999a⟩ : Double).json = "-0.1" := by decide +kernel
  obtain ⟨-, ⟨-, stands, -⟩, alone⟩ :=
    texts_exact (d := ⟨0xbfb999999999999a⟩) (by decide +kernel) .escaped
  rw [json] at stands alone
  exact ⟨text, json, stands, fun e finite same =>
    alone e finite (same.imp_left (·.trans text.symm))⟩

end Double

end Gremlin
