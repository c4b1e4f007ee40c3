import Gremlin.Proofs.Number.DoubleText
import Gremlin.Proofs.Number.Spacing

/-!
# Numbers of 32 bits keep their text

A number of 32 bits is turned into a double by way of its shortest decimal. That decimal has nine
digits at most, and the doubles lie so much closer to each other than decimals of nine digits
that it is the shortest one of the double too.

Results:
1. `shortest_widened`: the double has the shortest decimal of the number.
2. `parse?_text`: the text of every number is read, so that nothing falls back.
3. `ofSingle_keeps_text`: what becomes of each kind of number.
-/

namespace Gremlin

open Number (Format Decimal Layout Tie digits unsigned significantDigits IsPlain single)

namespace Number

/-! ## The same decimal in both formats -/

section Widened

variable {tie : Tie} {v w : Nat}

theorem coefficient_single_lt (tie : Tie) (nonzero : v ≠ 0) :
    (single.shortest tie v).coefficient < 10 ^ 9 := by
  have bound := Format.coefficient_shortest_mul_le (f := single) tie nonzero
  have mantissa := single.mantissa_lt v
  have leadingBit : single.leadingBit = 2 ^ 23 := rfl
  have reach : 1 ≤ single.reach v := by
    unfold Format.reach
    split <;> decide
  have least := Nat.mul_le_mul_left (single.shortest tie v).coefficient
    (Nat.add_le_add_right reach 2)
  omega

variable (finite : v < single.infinity) (nonzero : v ≠ 0)
  (rounds : double.Rounds (single.shortest tie v).value w)

include finite nonzero rounds

/-- Between the smallest and the largest number of 32 bits no double lacks the leading bit. -/
theorem widened_normal : double.leadingBit ≤ w := by
  have back := Format.rounds_shortest (f := single) (by decide) finite tie
  obtain ⟨k, rfl⟩ := Nat.exists_eq_succ_of_ne_zero nonzero
  have least : double.value double.leadingBit ≤ single.midpoint 0 := by
    rw [Format.value_eq_div]
    exact (Format.le_midpoint_iff (Nat.two_pow_pos _)).2 (by decide +kernel)
  have smallest := (Format.midpoint_strictMono (f := single)).monotone (Nat.zero_le k)
  have exact := Format.rounds_value (f := double) (w := double.leadingBit) (by decide +kernel)
  exact exact.le_of_le rounds ((least.trans smallest).trans back.midpoint_le)

omit nonzero in
theorem widened_finite : w < double.infinity := by
  have back := Format.rounds_shortest (f := single) (by decide) finite tie
  have most : single.midpoint (single.infinity - 1) ≤ double.value 0x47f0000000000000 := by
    rw [Format.value_eq_div]
    exact (Format.midpoint_le_iff (Nat.two_pow_pos _)).2 (by decide +kernel)
  have largest := (Format.midpoint_strictMono (f := single)).monotone (Nat.le_sub_one_of_lt finite)
  have exact := Format.rounds_value (f := double) (w := 0x47f0000000000000) (by decide +kernel)
  have below := rounds.le_of_le exact ((back.le_midpoint finite).trans (largest.trans most))
  exact Nat.lt_of_le_of_lt below (by decide +kernel)

/-- The double that a shortest decimal of nine digits is rounded to has the same shortest
decimal. -/
theorem shortest_widened : double.shortest tie w = single.shortest tie v := by
  have normal := widened_normal finite nonzero rounds
  have reduced := Format.coefficient_shortest_mod_ten (f := single) (by decide) finite tie nonzero
  have few := coefficient_single_lt tie nonzero
  have close := rounds.step_mul_le normal
  obtain ⟨k, rfl⟩ := Nat.exists_eq_succ_of_ne_zero
    (Nat.ne_of_gt (Nat.lt_of_lt_of_le double.leadingBit_pos normal))
  refine Format.shortest_eq_of_coarse (by decide) tie (widened_finite finite rounds) rounds
    reduced ?_
  have inside := Format.midpoint_sub_midpoint (f := double) k
  have shorter := Format.step_mono (f := double) (Nat.le_succ k)
  have positive := double.step_pos (k + 1)
  have few : ((single.shortest tie v).coefficient : ℚ) ≤ 10 ^ 9 := by exact_mod_cast few.le
  have power : (0 : ℚ) < 10 ^ (single.shortest tie v).exponent := by positivity
  have bit : (double.leadingBit : ℚ) = 2 ^ 52 := by
    exact_mod_cast (rfl : double.leadingBit = 2 ^ 52)
  simp only [Nat.succ_eq_add_one] at shorter close inside ⊢
  rw [Decimal.value, bit] at close
  have value := mul_le_mul_of_nonneg_right few power.le
  linarith

end Widened

end Number

/-! ## Reading the text -/

namespace Single

variable {s : Single}

theorem toList_text (finite : s.isFinite = true) :
    s.text.toList = single.signedText .plain s.isNegative s.magnitude := by
  have less : s.magnitude < single.infinity := of_decide_eq_true finite
  have number : s.isNaN = false := decide_eq_false (Nat.lt_asymm less)
  have bounded : s.isInfinite = false := beq_eq_false_iff_ne.2 (Nat.ne_of_lt less)
  rw [text, number, bounded]
  exact String.toList_ofList

/-- A sign and a magnitude make one number. -/
theorem eq_of_standsFor {s t : Single} {cs : List Char}
    (left : single.StandsFor cs s.isNegative s.magnitude)
    (right : single.StandsFor cs t.isNegative t.magnitude) : s = t := by
  obtain ⟨sign, magnitude⟩ := left.unique right
  obtain ⟨a⟩ := s
  obtain ⟨b⟩ := t
  have codes : single.codes = 2 ^ 31 := rfl
  have boundA := a.toNat_lt
  have boundB := b.toNat_lt
  unfold Single.isNegative at sign
  unfold Single.magnitude at magnitude
  rw [codes] at sign magnitude
  rw [decide_eq_decide] at sign
  dsimp only at sign magnitude
  congr 1
  rw [← UInt32.toNat_inj]
  omega

theorem standsFor_text (finite : s.isFinite = true) :
    single.StandsFor s.text.toList s.isNegative s.magnitude := by
  rw [toList_text finite]
  exact Format.standsFor_plain (by decide) (of_decide_eq_true finite) _

theorem eq_of_text_eq {t : Single} (finite : s.isFinite = true) (finite' : t.isFinite = true)
    (same : s.text = t.text) : s = t :=
  eq_of_standsFor (same ▸ standsFor_text finite) (standsFor_text finite')

end Single

namespace Double

variable {s : Single}

theorem parse?_of_minus {text : String} {cs : List Char} (split : text.toList = '-' :: cs) :
    parse? text = parseUnsigned? true cs := by
  rw [parse?, split]
  rfl

theorem parse?_of_digit {text : String} {c : Char} {cs : List Char}
    (split : text.toList = c :: cs) (digit : c.isDigit = true) :
    parse? text = parseUnsigned? false (c :: cs) := by
  unfold parse?
  rw [split]
  split
  · next minus => exact absurd (List.cons.inj minus).1 (Number.ne_minus_of_isDigit digit)
  · next plus =>
    rw [(List.cons.inj plus).1] at digit
    exact absurd digit (by decide)
  · rfl

/-- The text of a finite number is read with the sign and the shortest decimal. -/
theorem parse?_finite (finite : s.isFinite = true) :
    ∃ w, parse? s.text = some (ofMagnitude s.isNegative w) ∧
      Number.double.Rounds (single.shortest .up s.magnitude).value w := by
  obtain ⟨e, read, same⟩ := Number.parse?_plain (single.shortest .up s.magnitude)
  obtain ⟨c, cs, split, digit⟩ := Number.exists_digit_of_write (single.shortest .up s.magnitude)
  refine ⟨magnitudeOfDecimal e, ?_, same ▸ Number.rounds_magnitudeOfDecimal e⟩
  have text := Single.toList_text finite
  unfold Format.signedText at text
  change s.text.toList = _ ++ Layout.plain.write (single.shortest .up s.magnitude) at text
  rw [split] at read text
  cases negative : s.isNegative with
  | true =>
    rw [negative, if_pos rfl, List.singleton_append] at text
    rw [parse?_of_minus text, parseUnsigned?, read]
  | false =>
    rw [negative, if_neg Bool.false_ne_true, List.nil_append] at text
    rw [parse?_of_digit text digit, parseUnsigned?, read]

theorem parse?_infinite (infinite : s.isInfinite = true) :
    parse? s.text = some (ofMagnitude s.isNegative Number.double.infinity) := by
  have number : s.isNaN = false := decide_eq_false (Nat.not_lt.2 (beq_iff_eq.1 infinite).le)
  have word : s.text = if s.isNegative then "-inf" else "inf" := by
    rw [Single.text, number, infinite]
    rfl
  rw [word]
  cases s.isNegative with
  | true => decide +kernel
  | false => decide +kernel

theorem parse?_nan (nan : s.isNaN = true) : parse? s.text = some Double.nan := by
  have word : s.text = "NaN" := by
    rw [Single.text, nan]
    rfl
  rw [word]
  decide

/-- Nothing falls back. -/
theorem parse?_text (s : Single) : parse? s.text = some (ofSingle s) := by
  obtain ⟨d, read⟩ : ∃ d, parse? s.text = some d := by
    rcases Nat.lt_trichotomy s.magnitude single.infinity with less | same | more
    · obtain ⟨w, read, -⟩ := parse?_finite (decide_eq_true less)
      exact ⟨_, read⟩
    · exact ⟨_, parse?_infinite (beq_iff_eq.2 same)⟩
    · exact ⟨_, parse?_nan (decide_eq_true more)⟩
  rw [ofSingle, read]
  rfl

/-- The double of a finite number, and its shortest decimal. -/
theorem ofSingle_finite (finite : s.isFinite = true) :
    (ofSingle s).isNegative = s.isNegative ∧ (ofSingle s).isFinite = true ∧
      Number.double.shortest .up (ofSingle s).magnitude = single.shortest .up s.magnitude := by
  have less : s.magnitude < single.infinity := of_decide_eq_true finite
  obtain ⟨w, read, rounds⟩ := parse?_finite finite
  obtain ⟨below, same⟩ : w < Number.double.infinity ∧
      Number.double.shortest .up w = single.shortest .up s.magnitude := by
    by_cases zero : s.magnitude = 0
    · rw [zero] at rounds ⊢
      have none : Number.double.Rounds (single.shortest .up 0).value 0 := by
        have same : (single.shortest .up 0).value = Number.double.value 0 := by
          simp [Format.shortest, Decimal.value, Format.value_zero]
        rw [same]
        exact Format.rounds_value (Nat.zero_le _)
      rw [rounds.unique none]
      exact ⟨by decide, by simp [Format.shortest]⟩
    · exact ⟨Number.widened_finite less rounds, Number.shortest_widened less zero rounds⟩
  have codes := below.trans infinity_lt_codes
  have stored : ofSingle s = ofMagnitude s.isNegative w := by rw [ofSingle, read, Option.getD_some]
  rw [stored, isFinite, magnitude_ofMagnitude codes, isNegative_ofMagnitude codes]
  exact ⟨rfl, decide_eq_true below, same⟩

theorem text_ofSingle (finite : s.isFinite = true) : (ofSingle s).text = s.text := by
  obtain ⟨sign, finite', same⟩ := ofSingle_finite finite
  have less : s.magnitude < single.infinity := of_decide_eq_true finite
  refine String.toList_inj.1 ?_
  rw [Double.toList_text finite', Single.toList_text finite, Format.signedText, Format.signedText,
    sign]
  exact congrArg (_ ++ Layout.plain.write ·) same

example : (ofSingle ⟨0x3dcccccd⟩).text = "0.1" := by decide +kernel
example : (Single.widen ⟨0x3dcccccd⟩).text = "0.10000000149011612" := by decide +kernel

/-- A finite number of 32 bits becomes a finite double with the number's own text: an exponent-free
numeral that stands for the number and has no more digits than any decimal that is rounded to it.
Different finite numbers become different doubles with different texts, an infinity becomes the
infinity of the same sign, and what is no number stays so. In each case the text is read, so that
the double of the same magnitude is never fallen back on. -/
theorem ofSingle_keeps_text (s : Single) (q : Quoting) :
    parse? s.text = some (ofSingle s) ∧
    (s.isFinite = true →
      (ofSingle s).isFinite = true ∧
      (Value.double (ofSingle s)).text q = s.text ∧
      IsPlain (unsigned s.text.toList) ∧
      single.StandsFor s.text.toList s.isNegative s.magnitude ∧
      (∀ e : Decimal, single.Rounds e.value s.magnitude →
        significantDigits s.text.toList ≤ (digits e.coefficient).length) ∧
      ∀ t : Single, t.isFinite = true → t ≠ s →
        ofSingle t ≠ ofSingle s ∧
          (Value.double (ofSingle t)).text q ≠ (Value.double (ofSingle s)).text q) ∧
    (s.isInfinite = true → ofSingle s = ofMagnitude s.isNegative Number.double.infinity) ∧
    (s.isNaN = true → (ofSingle s).isNaN = true) := by
  refine ⟨parse?_text s, fun finite => ?_, fun infinite => ?_, fun nan => ?_⟩
  · have less : s.magnitude < single.infinity := of_decide_eq_true finite
    have wide : 0 < single.fractionBits := by decide
    refine ⟨(ofSingle_finite finite).2.1, text_ofSingle finite, ?_, Single.standsFor_text finite,
      fun e rounds => ?_, fun t finite' other => ?_⟩
    · rw [Single.toList_text finite]
      exact Format.isPlain_signedText wide less _
    · rw [Single.toList_text finite]
      exact Format.significantDigits_signedText wide less _ rounds
    · have apart : (ofSingle t).text ≠ (ofSingle s).text := by
        rw [text_ofSingle finite, text_ofSingle finite']
        exact fun same => other (Single.eq_of_text_eq finite' finite same)
      exact ⟨fun same => apart (congrArg Double.text same), apart⟩
  · rw [ofSingle, parse?_infinite infinite, Option.getD_some]
  · rw [ofSingle, parse?_nan nan, Option.getD_some]
    decide

/-- The smallest number, an infinity and no number. -/
theorem ofSingle_keeps_text_smallest :
    ((Value.double (ofSingle ⟨1⟩)).text .escaped = (Single.mk 1).text ∧
      ∀ t : Single, t.isFinite = true → t ≠ ⟨1⟩ → ofSingle t ≠ ofSingle ⟨1⟩) ∧
    ofSingle ⟨0xff800000⟩ = ofMagnitude true Number.double.infinity ∧
    (ofSingle ⟨0xffc00000⟩).isNaN = true := by
  obtain ⟨-, finite, -, -⟩ := ofSingle_keeps_text ⟨1⟩ .escaped
  obtain ⟨-, same, -, -, -, alone⟩ := finite (by decide +kernel)
  obtain ⟨-, -, infinite, -⟩ := ofSingle_keeps_text ⟨0xff800000⟩ .escaped
  obtain ⟨-, -, -, nan⟩ := ofSingle_keeps_text ⟨0xffc00000⟩ .escaped
  have negative : (Single.mk 0xff800000).isNegative = true := by decide +kernel
  refine ⟨⟨same, fun t finite other => (alone t finite other).1⟩, ?_, nan (by decide +kernel)⟩
  rw [infinite (by decide +kernel), negative]

end Double

end Gremlin
