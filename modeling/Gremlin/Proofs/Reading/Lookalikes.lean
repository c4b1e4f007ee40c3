import Gremlin.Proofs.Json.Predicates
import Gremlin.Proofs.Number.DoubleText

/-!
# Texts and equality

Values are compared as numbers are, so equality is not sameness: a double that is not a number
differs from itself, and the two zeros are equal. The text of a value tells it apart from every
other one, except where the text is a numeral or a name that two values share.

Results:
1. `text_eq_integerText_iff`: the doubles that are written as an integer.
2. `text_eq_iff_alike`: the values that have the same text.
3. `text_eq_and_ne_iff`, `eq_and_text_ne_iff`: where text and equality differ.
4. `text_eq_iff_beq`: what the text says of values, and of calls and their arguments.
-/

namespace Gremlin

open Number (Decimal Layout digits zeros unsigned)

/-! ## Definitions -/

/-- Whether a double is finite and its shortest decimal, with the sign, is the integer. -/
structure Double.WrittenWhole (d : Double) (n : Int64) : Prop where
  finite : d.isFinite = true
  sign : d.isNegative = decide (n.toInt < 0)
  decimal : (Number.double.shortest Layout.plain.tie d.magnitude).value = n.toInt.natAbs

namespace Value

/-- Values that have the same text and are not equal. -/
inductive Lookalike : Value → Value → Prop
  /-- Two doubles that are not a number. -/
  | notNumbers {d e : Double} (left : d.isNaN = true) (right : e.isNaN = true) :
      Lookalike (.double d) (.double e)
  /-- An integer and a double with this shortest decimal. -/
  | integerDouble {n : Int64} {d : Double} (whole : d.WrittenWhole n) :
      Lookalike (.integer n) (.double d)
  /-- And the other way around. -/
  | doubleInteger {n : Int64} {d : Double} (whole : d.WrittenWhole n) :
      Lookalike (.double d) (.integer n)

/-- Values that are equal and have different texts: zero, and zero below zero. -/
inductive OppositeZeros : Value → Value → Prop
  | intro {d e : Double} (left : d.magnitude = 0) (right : e.magnitude = 0)
      (signs : d.isNegative ≠ e.isNegative) : OppositeZeros (.double d) (.double e)

end Value

/-! ## Numerals of integers -/

namespace Number

/-- A numeral is its sign and what is behind it. -/
theorem eq_of_unsigned_eq {cs ds : List Char}
    (sign : (cs.head? == some '-') = (ds.head? == some '-'))
    (same : unsigned cs = unsigned ds) : cs = ds := by
  have restored (cs : List Char) :
      cs = (if cs.head? == some '-' then ['-'] else []) ++ unsigned cs := by
    cases cs with
    | nil => rfl
    | cons c cs =>
      by_cases minus : c = '-'
      · subst minus
        rfl
      · have other : unsigned (c :: cs) = c :: cs := by simp [unsigned, minus]
        simp [other, minus]
  rw [restored cs, restored ds, sign, same]

theorem digits_mul_ten_pow {n : Nat} (nonzero : n ≠ 0) (k : Nat) :
    digits (n * 10 ^ k) = digits n ++ zeros k := by
  induction k with
  | zero => simp [zeros]
  | succ k ih =>
    have positive : 0 < n * 10 ^ k :=
      Nat.mul_pos (Nat.pos_of_ne_zero nonzero) (Nat.pow_pos (by decide))
    have last : digits (10 * (n * 10 ^ k) + 0) = digits (n * 10 ^ k) ++ ['0'] :=
      (Nat.toDigits_append_toDigits (by decide) positive (by decide)).symm
    have same : n * 10 ^ (k + 1) = 10 * (n * 10 ^ k) + 0 := by ring
    rw [same, last, ih, zeros, zeros, List.replicate_succ', List.append_assoc]

/-- A reduced decimal is written without a point iff it is a whole number. -/
theorem write_eq_digits_iff {d : Decimal} (reduced : d.Reduced) (n : Nat) :
    Layout.plain.write d = digits n ↔ d.value = n := by
  constructor
  · intro same
    obtain ⟨e, read, value⟩ := parse?_plain d
    have whole := parse?_whole (isDigits_digits n) stopsDigits_nil
    rw [List.append_nil, ofDigitChars_digits, ← same, read] at whole
    rw [← value, Option.some.inj whole]
    simp [Decimal.value]
  · obtain ⟨c, exponent⟩ := d
    intro value
    rcases reduced with zero | last
    · cases zero
      have none : n = 0 := by simpa [Decimal.value, eq_comm] using value
      rw [none]
      rfl
    · cases exponent with
      | ofNat k =>
        have nonzero : c ≠ 0 := ne_zero_of_mod_ten last
        rw [Decimal.value_ofNat, Nat.cast_inj] at value
        rw [← value, digits_mul_ten_pow nonzero]
        exact List.append_nil _
      | negSucc k =>
        -- A number with decimal places would end in a zero.
        rw [Decimal.value_negSucc, div_eq_iff (by positivity)] at value
        have multiple : c = n * Nat.pow 10 (k + 1) := by exact_mod_cast value
        refine absurd ?_ last
        rw [multiple, Nat.pow_eq, pow_succ, ← mul_assoc]
        exact Nat.mul_mod_left _ _

end Number

theorem toList_integerText (n : Int64) : (integerText n).toList =
    (if n.toInt < 0 then ['-'] else []) ++ digits n.toInt.natAbs := by
  rcases lt_or_ge n.toInt 0 with negative | sign
  · have size : (-n.toInt).toNat = n.toInt.natAbs := by omega
    rw [integerText_of_neg negative, if_pos negative, size]
    rfl
  · have size : n.toInt.toNat = n.toInt.natAbs := by omega
    rw [integerText_of_nonneg sign, if_neg (not_lt.2 sign), size]
    rfl

section Integers

variable (n : Int64)

theorem unsigned_integerText : unsigned (integerText n).toList = digits n.toInt.natAbs := by
  obtain ⟨c, rest, split, digit⟩ := Number.exists_digit_of_digits n.toInt.natAbs
  have other : c ≠ '-' := Number.ne_minus_of_isDigit digit
  rw [toList_integerText, split]
  split
  · rfl
  · simp [unsigned, other]

theorem head_integerText :
    decide (n.toInt < 0) = ((integerText n).toList.head? == some '-') := by
  obtain ⟨c, rest, split, digit⟩ := Number.exists_digit_of_digits n.toInt.natAbs
  have other : c ≠ '-' := Number.ne_minus_of_isDigit digit
  rw [toList_integerText, split]
  split
  · next negative => simpa using negative
  · next sign => simp [other, sign]

end Integers

/-- A double is written as an integer iff its shortest decimal is the integer. -/
theorem text_eq_integerText_iff {d : Double} {n : Int64} :
    d.text = integerText n ↔ d.WrittenWhole n := by
  have word {w : String} (other : integer? w.toList = none) : w ≠ integerText n := by
    intro same
    rw [integer?_eq_some_iff.2 (congrArg String.toList same)] at other
    cases other
  have finite_of_text (same : d.text = integerText n) : d.isFinite = true := by
    rcases Double.text_cases d with ⟨_, text⟩ | ⟨_, text⟩ | ⟨_, text⟩ | ⟨finite, _⟩
    · exact absurd (text.symm.trans same) (word (by decide))
    · exact absurd (text.symm.trans same) (word (by decide))
    · exact absurd (text.symm.trans same) (word (by decide))
    · exact finite
  have starts := Number.exists_digit_of_write (Number.double.shortest .up d.magnitude)
  have sign : d.isNegative =
      ((Number.double.signedText .plain d.isNegative d.magnitude).head? == some '-') :=
    Number.Format.head_signedText starts
  have behind : unsigned (Number.double.signedText .plain d.isNegative d.magnitude) =
      Number.Layout.plain.write (Number.double.shortest .up d.magnitude) :=
    Number.Format.unsigned_plain d.isNegative
  have reduced (finite : d.isFinite = true) :=
    Number.Format.reduced_shortest (by decide) (of_decide_eq_true finite) .up
  constructor
  · intro same
    have finite := finite_of_text same
    rw [← Double.toList_text finite, same] at sign behind
    rw [← head_integerText] at sign
    rw [unsigned_integerText] at behind
    exact ⟨finite, sign, (Number.write_eq_digits_iff (reduced finite) _).1 behind.symm⟩
  · rintro ⟨finite, negative, decimal⟩
    have whole := (Number.write_eq_digits_iff (reduced finite) _).2 decimal
    rw [← Double.toList_text finite] at sign behind
    refine String.toList_inj.1 (Number.eq_of_unsigned_eq ?_ ?_)
    · rw [← sign, ← head_integerText, negative]
    · rw [behind, whole, unsigned_integerText]

/-! ## Values -/

theorem Double.equal_iff {d e : Double} : d.equal e = true ↔
    d.isNaN = false ∧ e.isNaN = false ∧ (d = e ∨ d.magnitude = 0 ∧ e.magnitude = 0) := by
  have bits : d.bits = e.bits ↔ d = e := by
    cases d
    cases e
    simp
  simp [Double.equal, bits, and_assoc]

namespace Value

variable {a b : Value}

theorem text_eq_of_alike (alike : a.Alike b) : a.text .escaped = b.text .escaped := by
  cases alike with
  | same => rfl
  | @notNumbers d e left right => simp [text, Double.text, left, right]
  | integerDouble numeral => exact numeral.symm
  | doubleInteger numeral => exact numeral

/-- Two values have the same text iff they are alike. -/
theorem text_eq_iff_alike : a.text .escaped = b.text .escaped ↔ a.Alike b := by
  refine ⟨fun same => canonical_eq_iff.1 ?_, text_eq_of_alike⟩
  have stop : Ends argumentEnds [] := by simp [Ends]
  have left := reads_value a [] stop
  rw [same, reads_value b [] stop] at left
  exact (Prod.mk.inj (Option.some.inj left)).1.symm

theorem isNaN_of_magnitude {d : Double} (zero : d.magnitude = 0) : d.isNaN = false := by
  rw [Double.isNaN, zero]
  rfl

theorem double_beq_iff {d e : Double} : (Value.double d == .double e) = true ↔
    (d = e ∧ d.isNaN = false) ∨ OppositeZeros (.double d) (.double e) := by
  show d.equal e = true ↔ _
  rw [Double.equal_iff]
  constructor
  · rintro ⟨number, _, same | ⟨left, right⟩⟩
    · exact .inl ⟨same, number⟩
    · by_cases signs : d.isNegative = e.isNegative
      · refine .inl ⟨?_, number⟩
        rw [← Double.ofMagnitude_magnitude d, ← Double.ofMagnitude_magnitude e, signs, left, right]
      · exact .inr ⟨left, right, signs⟩
  · rintro (⟨rfl, number⟩ | ⟨left, right, _⟩)
    · exact ⟨number, number, .inl rfl⟩
    · exact ⟨isNaN_of_magnitude left, isNaN_of_magnitude right, .inr ⟨left, right⟩⟩

/-- Strings, integers and truth values are equal iff they are the same. -/
theorem beq_iff_eq_of_plain (plain : ∀ d, a ≠ .double d) : (a == b) = true ↔ a = b := by
  cases a with
  | double d => exact absurd rfl (plain d)
  | string s =>
    cases b with
    | string t =>
      show (s == t) = true ↔ _
      simp
    | _ => exact iff_of_false Bool.false_ne_true nofun
  | integer n =>
    cases b with
    | integer m =>
      show (n == m) = true ↔ _
      simp
    | _ => exact iff_of_false Bool.false_ne_true nofun
  | boolean x =>
    cases b with
    | boolean y =>
      show (x == y) = true ↔ _
      simp
    | _ => exact iff_of_false Bool.false_ne_true nofun

/-- Values are equal iff they are the same, but for numbers that are none and for the zeros. -/
theorem beq_iff : (a == b) = true ↔
    (a = b ∧ ∀ d, a = .double d → d.isNaN = false) ∨ a.OppositeZeros b := by
  by_cases number : ∃ d, a = .double d
  · obtain ⟨d, rfl⟩ := number
    cases b with
    | double e => simpa using double_beq_iff
    | _ => exact iff_of_false Bool.false_ne_true (by rintro (⟨same, -⟩ | zeros) <;> contradiction)
  · have plain : ∀ d, a ≠ .double d := fun d same => number ⟨d, same⟩
    rw [beq_iff_eq_of_plain plain]
    constructor
    · exact fun same => .inl ⟨same, fun d double => absurd double (plain d)⟩
    · rintro (⟨same, -⟩ | zeros)
      · exact same
      · cases zeros
        exact absurd rfl (plain _)

/-! ## Where text and equality differ -/

theorem not_alike_of_oppositeZeros (zeros : a.OppositeZeros b) : ¬ a.Alike b := by
  obtain ⟨left, -, signs⟩ := zeros
  intro alike
  cases alike with
  | same => exact signs rfl
  | notNumbers number => exact absurd number (by rw [isNaN_of_magnitude left]; decide)

/-- The values with the same text that are not equal. -/
theorem text_eq_and_ne_iff :
    a.text .escaped = b.text .escaped ∧ (a == b) = false ↔ a.Lookalike b := by
  rw [text_eq_iff_alike, ← Bool.not_eq_true, beq_iff]
  constructor
  · rintro ⟨alike, other⟩
    cases alike with
    | same =>
      by_contra different
      refine other (.inl ⟨rfl, fun d double => Bool.eq_false_iff.2 fun number => ?_⟩)
      subst double
      exact different (.notNumbers number number)
    | notNumbers left right => exact .notNumbers left right
    | integerDouble numeral => exact .integerDouble (text_eq_integerText_iff.1 numeral)
    | doubleInteger numeral => exact .doubleInteger (text_eq_integerText_iff.1 numeral)
  · intro lookalike
    have alike : a.Alike b := by
      cases lookalike with
      | notNumbers left right => exact .notNumbers left right
      | integerDouble whole => exact .integerDouble (text_eq_integerText_iff.2 whole)
      | doubleInteger whole => exact .doubleInteger (text_eq_integerText_iff.2 whole)
    refine ⟨alike, ?_⟩
    rintro (⟨rfl, number⟩ | zeros)
    · cases lookalike with
      | notNumbers left right => exact absurd left (by rw [number _ rfl]; decide)
    · exact not_alike_of_oppositeZeros zeros alike

/-- The equal values with different texts. -/
theorem eq_and_text_ne_iff :
    (a == b) = true ∧ a.text .escaped ≠ b.text .escaped ↔ a.OppositeZeros b := by
  rw [Ne, text_eq_iff_alike, beq_iff]
  constructor
  · rintro ⟨⟨rfl, -⟩ | zeros, different⟩
    · exact absurd (.same a) different
    · exact zeros
  · exact fun zeros => ⟨.inr zeros, not_alike_of_oppositeZeros zeros⟩

end Value

/-! ## Calls -/

namespace Comparer

open Reader

theorem text_call_eq_iff {name name' : String} {args args' : List Value}
    (isWord : IsWord name.toList) (isWord' : IsWord name'.toList) :
    (call name args).text .escaped = (call name' args').text .escaped ↔
      name = name' ∧ args.map (Value.text .escaped) = args'.map (Value.text .escaped) := by
  have argument {a b : Value} : a.canonical = b.canonical ↔ a.text .escaped = b.text .escaped :=
    Value.canonical_eq_iff.trans Value.text_eq_iff_alike.symm
  constructor
  · intro same
    have left : callReader (((call name args).text .escaped).toList ++ []) =
        some (.call name (args.map Value.canonical), []) := callReader_text isWord []
    rw [same, callReader_text isWord' []] at left
    obtain ⟨rfl, read⟩ := call.inj (Prod.mk.inj (Option.some.inj left)).1
    refine ⟨rfl, ?_⟩
    simp only [List.ext_getElem_iff, List.length_map, List.getElem_map, argument] at read ⊢
    exact ⟨read.1.symm, fun i h h' => (read.2 i h' h).symm⟩
  · rintro ⟨rfl, same⟩
    rw [text, text, same]

end Comparer

/-- The text of a value says whether it is equal to another one, but for two doubles that are not
a number, an integer and a finite double with this shortest decimal, which look the same, and the
two zeros, which do not. The text of a call that is built says the name, the number of arguments,
and the text of each of them. -/
theorem text_eq_iff_beq :
    (∀ a b : Value,
      ((a.text .escaped = b.text .escaped ↔ (a == b) = true) ↔
        ¬ (a.Lookalike b ∨ a.OppositeZeros b)) ∧
      (a.text .escaped = b.text .escaped ∧ (a == b) = false ↔ a.Lookalike b) ∧
      ((a == b) = true ∧ a.text .escaped ≠ b.text .escaped ↔ a.OppositeZeros b)) ∧
    ∀ (r r' : Comparer.Request) (name name' : String) (args args' : List Value),
      r.build = .ok (.call name args) → r'.build = .ok (.call name' args') →
      ((Comparer.call name args).text .escaped = (Comparer.call name' args').text .escaped ↔
        name = name' ∧ args.length = args'.length ∧
          ∀ i (h : i < args.length) (h' : i < args'.length),
            args[i].text .escaped = args'[i].text .escaped) := by
  constructor
  · intro a b
    refine ⟨?_, Value.text_eq_and_ne_iff, Value.eq_and_text_ne_iff⟩
    rw [← Value.text_eq_and_ne_iff, ← Value.eq_and_text_ne_iff]
    cases (a == b) <;> simp
  · intro r r' name name' args args' made made'
    rw [Comparer.text_call_eq_iff (Session.isWord_of_build made) (Session.isWord_of_build made')]
    simp only [List.ext_getElem_iff, List.length_map, List.getElem_map]

/-- One text with a separator between quotes inside, and two texts. -/
theorem text_eq_iff_beq_within :
    (Comparer.call "within" [.string "a','b"]).text .escaped ≠
      (Comparer.call "within" [.string "a", .string "b"]).text .escaped := by
  intro same
  obtain ⟨-, length, -⟩ := (text_eq_iff_beq.2 (.member .within [.string "a','b"])
    (.member .within [.string "a", .string "b"]) _ _ _ _ rfl rfl).1 same
  cases length

end Gremlin
