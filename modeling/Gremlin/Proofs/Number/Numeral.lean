import Gremlin.Proofs.Number.ReadBack
import Gremlin.Value

/-!
# Numerals

The texts of numbers in statements, and how they are read: the text of an integer is an
optional sign and its digits, the text of a finite double is an optional sign and a
positional decimal. No exponent is ever written, so a run of digits with at most one point
is all that has to be read.

Results:
1. `magnitudeOfDecimal_ofText`: a positional text stands for the decimal it was made from.
2. `integer?_eq_some_iff`: a text is read as an integer iff it is the text of the integer.
3. `ofText_finiteText`: the text of a finite double is read as the double.
4. `text_cases`: only finite doubles are written with digits.
-/

namespace Gremlin

open Number (Decimal Layout digits zeros)

/-! ## Definitions -/

/-- The characters that numbers and words consist of. -/
def isBare (c : Char) : Bool := c.isAlphanum || c == '.' || c == '-' || c == '_'

/-- The decimal of a positional text. -/
def Number.Decimal.ofText (cs : List Char) : Decimal :=
  match cs.dropWhile Char.isDigit with
  | '.' :: fraction =>
    ⟨Nat.ofDigitChars 10 (cs.takeWhile Char.isDigit ++ fraction) 0, -fraction.length⟩
  | _ => ⟨Nat.ofDigitChars 10 (cs.takeWhile Char.isDigit) 0, 0⟩

/-- The double of a sign and a positional text. -/
def Double.ofText : List Char → Double
  | '-' :: cs => ofMagnitude true (magnitudeOfDecimal (Decimal.ofText cs))
  | cs => ofMagnitude false (magnitudeOfDecimal (Decimal.ofText cs))

/-- The whole number of a sign and digits. -/
def wholeOfText : List Char → Int
  | '-' :: ds => -Nat.ofDigitChars 10 ds 0
  | ds => Nat.ofDigitChars 10 ds 0

/-- The integer whose text is given, if there is one. -/
def integer? (cs : List Char) : Option Int64 :=
  let n := Int64.ofInt (wholeOfText cs)
  if (integerText n).toList = cs then some n else none

/-! ## Digits -/

namespace Number

theorem isDigit_of_mem_digits {n : Nat} {c : Char} (member : c ∈ digits n) : c.isDigit = true :=
  Nat.isDigit_of_mem_toDigits (by decide) (by decide) member

theorem isDigit_of_mem_zeros {n : Nat} {c : Char} (member : c ∈ zeros n) : c.isDigit = true := by
  rw [List.eq_of_mem_replicate member]
  rfl

theorem exists_digit_of_digits (n : Nat) :
    ∃ c rest, digits n = c :: rest ∧ c.isDigit = true := by
  obtain ⟨c, rest, split⟩ := List.exists_cons_of_ne_nil (Nat.toDigits_ne_nil (n := n) (b := 10))
  have member : c ∈ digits n := by
    rw [digits, split]
    exact List.mem_cons_self
  exact ⟨c, rest, split, isDigit_of_mem_digits member⟩

theorem ofDigitChars_digits (n : Nat) : Nat.ofDigitChars 10 (digits n) 0 = n :=
  Nat.ofDigitChars_ten_toDigits

theorem ofDigitChars_zeros_append (k : Nat) (cs : List Char) :
    Nat.ofDigitChars 10 (zeros k ++ cs) 0 = Nat.ofDigitChars 10 cs 0 := by
  rw [Nat.ofDigitChars_append, zeros, Nat.ofDigitChars_replicate_zero, Nat.mul_zero]

theorem ofDigitChars_digits_zeros (n k : Nat) :
    Nat.ofDigitChars 10 (digits n ++ zeros k) 0 = n * 10 ^ k := by
  rw [Nat.ofDigitChars_append, ofDigitChars_digits, zeros, Nat.ofDigitChars_replicate_zero,
    Nat.mul_comm]

theorem isDigit_of_mem_digits_zeros {n k : Nat} {c : Char} (member : c ∈ digits n ++ zeros k) :
    c.isDigit = true :=
  (List.mem_append.1 member).elim isDigit_of_mem_digits isDigit_of_mem_zeros

/-- A text that begins with a digit has no sign. -/
theorem ne_minus_of_isDigit {c : Char} (digit : c.isDigit = true) : c ≠ '-' := by
  rintro rfl
  exact absurd digit (by decide)

/-! ## Decimals -/

theorem Decimal.ofText_whole {ds : List Char} (all : ∀ c ∈ ds, c.isDigit = true) :
    Decimal.ofText ds = ⟨Nat.ofDigitChars 10 ds 0, 0⟩ := by
  have taken : (ds ++ []).takeWhile Char.isDigit = ds ++ [] := List.takeWhile_append_of_pos all
  have dropped : (ds ++ []).dropWhile Char.isDigit = [] := List.dropWhile_append_of_pos all
  rw [List.append_nil] at taken dropped
  rw [ofText, taken, dropped]

theorem Decimal.ofText_fraction {whole fraction : List Char}
    (all : ∀ c ∈ whole, c.isDigit = true) :
    Decimal.ofText (whole ++ '.' :: fraction) =
      ⟨Nat.ofDigitChars 10 (whole ++ fraction) 0, -fraction.length⟩ := by
  have taken : (whole ++ '.' :: fraction).takeWhile Char.isDigit = whole := by
    rw [List.takeWhile_append_of_pos all]
    simp
  have dropped : (whole ++ '.' :: fraction).dropWhile Char.isDigit = '.' :: fraction := by
    rw [List.dropWhile_append_of_pos all]
    simp
  rw [ofText, taken, dropped]
  rfl

/-- A positional text with digits behind the point, as many as the exponent counts. -/
theorem positionalText_split (l : Layout) (n k : Nat) :
    ∃ whole fraction, l.positionalText (digits n) (.negSucc k) = whole ++ '.' :: fraction ∧
      whole ≠ [] ∧ (∀ c ∈ whole ++ fraction, c.isDigit = true) ∧ fraction.length = k + 1 ∧
      Nat.ofDigitChars 10 (whole ++ fraction) 0 = n := by
  unfold Layout.positionalText
  dsimp only
  split
  · next inside =>
    have all : ∀ c ∈ digits n, c.isDigit = true := fun c => isDigit_of_mem_digits
    refine ⟨_, _, rfl, ?_, ?_, ?_, ?_⟩
    · exact List.ne_nil_of_length_pos (by rw [List.length_take]; omega)
    · rwa [List.take_append_drop]
    · rw [List.length_drop]
      omega
    · rw [List.take_append_drop, ofDigitChars_digits]
  · next outside =>
    refine ⟨['0'], _, rfl, List.cons_ne_nil _ _, fun c member => ?_, ?_, ?_⟩
    · rcases List.mem_append.1 member with first | behind
      · rw [List.mem_singleton.1 first]
        rfl
      · rcases List.mem_append.1 behind with zero | digit
        · exact isDigit_of_mem_zeros zero
        · exact isDigit_of_mem_digits digit
    · rw [List.length_append, zeros, List.length_replicate]
      omega
    · have zero : ['0'] = zeros 1 := rfl
      rw [zero, ofDigitChars_zeros_append, ofDigitChars_zeros_append, ofDigitChars_digits]

/-- A positional text stands for the decimal it was made from. -/
theorem magnitudeOfDecimal_ofText (d : Decimal) :
    Double.magnitudeOfDecimal (Decimal.ofText (Layout.plain.write d)) =
      Double.magnitudeOfDecimal d := by
  obtain ⟨n, exponent⟩ := d
  show Double.magnitudeOfDecimal
    (Decimal.ofText (Layout.plain.positionalText (digits n) exponent)) = _
  cases exponent with
  | ofNat k =>
    simp only [Layout.positionalText, Layout.plain, List.append_nil]
    rw [Decimal.ofText_whole fun c => isDigit_of_mem_digits_zeros, ofDigitChars_digits_zeros]
    simp [Double.magnitudeOfDecimal]
  | negSucc k =>
    obtain ⟨whole, fraction, text, -, all, length, value⟩ := positionalText_split .plain n k
    rw [text, Decimal.ofText_fraction fun c member => all c (List.mem_append_left _ member), value,
      length]
    rfl

/-- A positional text begins with a digit. -/
theorem exists_digit_of_write (d : Decimal) :
    ∃ c rest, Layout.plain.write d = c :: rest ∧ c.isDigit = true := by
  obtain ⟨n, exponent⟩ := d
  show ∃ c rest, Layout.plain.positionalText (digits n) exponent = c :: rest ∧ _
  cases exponent with
  | ofNat k =>
    obtain ⟨c, rest, split, digit⟩ := exists_digit_of_digits n
    rw [split]
    exact ⟨c, _, rfl, digit⟩
  | negSucc k =>
    obtain ⟨whole, fraction, text, nonempty, all, -, -⟩ := positionalText_split .plain n k
    obtain ⟨c, cs, rfl⟩ := List.exists_cons_of_ne_nil nonempty
    exact ⟨c, _, text, all c List.mem_cons_self⟩

theorem isBare_of_isDigit {c : Char} (digit : c.isDigit = true) : isBare c = true := by
  simp [isBare, Char.isAlphanum, digit]

theorem isBare_of_mem_write {d : Decimal} {c : Char} (member : c ∈ Layout.plain.write d) :
    isBare c = true := by
  obtain ⟨n, exponent⟩ := d
  change c ∈ Layout.plain.positionalText (digits n) exponent at member
  cases exponent with
  | ofNat k =>
    simp only [Layout.positionalText, Layout.plain, List.append_nil] at member
    exact isBare_of_isDigit (isDigit_of_mem_digits_zeros member)
  | negSucc k =>
    obtain ⟨whole, fraction, text, -, all, -, -⟩ := positionalText_split .plain n k
    rw [text] at member
    rcases List.mem_append.1 member with before | behind
    · exact isBare_of_isDigit (all c (List.mem_append_left _ before))
    · rcases List.mem_cons.1 behind with rfl | after
      · rfl
      · exact isBare_of_isDigit (all c (List.mem_append_right _ after))

end Number

/-! ## Integers -/

theorem integerText_of_nonneg {n : Int64} (sign : 0 ≤ n.toInt) :
    (integerText n).toList = digits n.toInt.toNat := by
  rw [integerText, Int.toString_eq_repr, Int.repr_eq_if, if_pos sign, Nat.toList_repr, digits]

theorem integerText_of_neg {n : Int64} (sign : n.toInt < 0) :
    (integerText n).toList = '-' :: digits (-n.toInt).toNat := by
  rw [integerText, Int.toString_eq_repr, Int.repr_eq_if, if_neg (by omega), String.toList_append,
    Nat.toList_repr, digits]
  rfl

/-- The text of an integer begins with a digit or with a sign. -/
theorem exists_digit_of_integerText (n : Int64) :
    ∃ c rest, (integerText n).toList = c :: rest ∧ (c.isDigit = true ∨ c = '-') := by
  rcases lt_or_ge n.toInt 0 with negative | sign
  · exact ⟨'-', _, integerText_of_neg negative, .inr rfl⟩
  · obtain ⟨c, rest, split, digit⟩ := Number.exists_digit_of_digits n.toInt.toNat
    exact ⟨c, rest, (integerText_of_nonneg sign).trans split, .inl digit⟩

theorem isBare_of_mem_integerText {n : Int64} {c : Char} (member : c ∈ (integerText n).toList) :
    isBare c = true := by
  rcases lt_or_ge n.toInt 0 with negative | sign
  · rw [integerText_of_neg negative] at member
    rcases List.mem_cons.1 member with rfl | digit
    · rfl
    · exact Number.isBare_of_isDigit (Number.isDigit_of_mem_digits digit)
  · rw [integerText_of_nonneg sign] at member
    exact Number.isBare_of_isDigit (Number.isDigit_of_mem_digits member)

theorem wholeOfText_of_digit {c : Char} {rest : List Char} (digit : c.isDigit = true) :
    wholeOfText (c :: rest) = Nat.ofDigitChars 10 (c :: rest) 0 := by
  unfold wholeOfText
  split
  · next split => exact absurd (List.cons.inj split).1 (Number.ne_minus_of_isDigit digit)
  · rfl

theorem wholeOfText_integerText (n : Int64) : wholeOfText (integerText n).toList = n.toInt := by
  rcases lt_or_ge n.toInt 0 with negative | sign
  · rw [integerText_of_neg negative]
    show -((Nat.ofDigitChars 10 (Nat.toDigits 10 _) 0 : Nat) : Int) = _
    rw [Nat.ofDigitChars_ten_toDigits]
    omega
  · obtain ⟨c, rest, split, digit⟩ := Number.exists_digit_of_digits n.toInt.toNat
    rw [integerText_of_nonneg sign, split, wholeOfText_of_digit digit, ← split, digits,
      Nat.ofDigitChars_ten_toDigits]
    omega

/-- A text is read as an integer iff it is the text of the integer. -/
theorem integer?_eq_some_iff {cs : List Char} {n : Int64} :
    integer? cs = some n ↔ cs = (integerText n).toList := by
  unfold integer?
  dsimp only
  constructor
  · intro read
    split at read
    · next same =>
      cases read
      exact same.symm
    · cases read
  · rintro rfl
    rw [wholeOfText_integerText, Int64.ofInt_toInt, if_pos rfl]

/-! ## Doubles -/

namespace Double

theorem ofMagnitude_magnitude (d : Double) : ofMagnitude d.isNegative d.magnitude = d := by
  obtain ⟨bits⟩ := d
  have bound := bits.toNat_lt
  have codes : Number.double.codes = 2 ^ 63 := rfl
  unfold ofMagnitude isNegative magnitude
  rw [codes]
  congr 1
  rw [← UInt64.toNat_inj, UInt64.toNat_ofNat']
  simp only [decide_eq_true_eq]
  split <;> omega

section OfMagnitude

variable {negative : Bool} {w : Nat}

theorem toNat_ofMagnitude (below : w < Number.double.codes) :
    (ofMagnitude negative w).bits.toNat = (if negative then Number.double.codes else 0) + w := by
  have codes : Number.double.codes = 2 ^ 63 := rfl
  unfold ofMagnitude
  rw [UInt64.toNat_ofNat', codes]
  rw [codes] at below
  cases negative with
  | true => exact Nat.mod_eq_of_lt (by simp only [if_true]; omega)
  | false => exact (Nat.mod_eq_of_lt (by simp; omega)).trans (Nat.zero_add w).symm

theorem isNegative_ofMagnitude (below : w < Number.double.codes) :
    (ofMagnitude negative w).isNegative = negative := by
  rw [isNegative, toNat_ofMagnitude below]
  cases negative <;> simp [below]

theorem magnitude_ofMagnitude (below : w < Number.double.codes) :
    (ofMagnitude negative w).magnitude = w := by
  rw [magnitude, toNat_ofMagnitude below]
  cases negative <;> simp [Nat.mod_eq_of_lt below]

theorem infinity_lt_codes : Number.double.infinity < Number.double.codes := by decide +kernel

end OfMagnitude

theorem ofText_of_digit {c : Char} {rest : List Char} (digit : c.isDigit = true) :
    ofText (c :: rest) = ofMagnitude false (magnitudeOfDecimal (Decimal.ofText (c :: rest))) := by
  unfold ofText
  split
  · next split => exact absurd (List.cons.inj split).1 (Number.ne_minus_of_isDigit digit)
  · rfl

/-- The text of a finite double is read as the double. -/
theorem ofText_finiteText {d : Double} (finite : d.isFinite = true) :
    ofText (finiteText .plain d) = d := by
  have magnitude : magnitudeOfDecimal (Decimal.ofText
      (Layout.plain.write (Number.double.shortest Layout.plain.tie d.magnitude))) =
      d.magnitude := by
    rw [Number.magnitudeOfDecimal_ofText]
    exact Number.magnitudeOfDecimal_shortest (of_decide_eq_true finite) _
  unfold finiteText
  cases sign : d.isNegative with
  | true =>
    show ofMagnitude true (magnitudeOfDecimal (Decimal.ofText (Layout.plain.write _))) = d
    rw [magnitude, ← sign, ofMagnitude_magnitude]
  | false =>
    show ofText (Layout.plain.write _) = d
    obtain ⟨c, rest, split, digit⟩ :=
      Number.exists_digit_of_write (Number.double.shortest Layout.plain.tie d.magnitude)
    rw [split, ofText_of_digit digit, ← split, magnitude, ← sign, ofMagnitude_magnitude]

/-- The text of a finite double begins with a digit or with a sign. -/
theorem exists_digit_of_finiteText (d : Double) :
    ∃ c rest, finiteText .plain d = c :: rest ∧ (c.isDigit = true ∨ c = '-') := by
  unfold finiteText
  split
  · exact ⟨'-', _, rfl, .inr rfl⟩
  · obtain ⟨c, rest, split, digit⟩ :=
      Number.exists_digit_of_write (Number.double.shortest Layout.plain.tie d.magnitude)
    exact ⟨c, rest, split, .inl digit⟩

theorem isBare_of_mem_finiteText {d : Double} {c : Char} (member : c ∈ finiteText .plain d) :
    isBare c = true := by
  rcases List.mem_append.1 member with sign | digit
  · split at sign
    · rw [List.mem_singleton.1 sign]
      rfl
    · cases sign
  · exact Number.isBare_of_mem_write digit

/-- What a double stands for, and what is written for it. -/
theorem text_cases (d : Double) :
    (d.isNaN = true ∧ d.text = "Double.NaN") ∨
    (d = ofMagnitude true Number.double.infinity ∧ d.text = "Double.NEGATIVE_INFINITY") ∨
    (d = ofMagnitude false Number.double.infinity ∧ d.text = "Double.POSITIVE_INFINITY") ∨
    (d.isFinite = true ∧ d.text.toList = finiteText .plain d) := by
  unfold text
  split
  · next nan => exact .inl ⟨nan, rfl⟩
  · next number =>
    split
    · next infinite =>
      have same : ofMagnitude d.isNegative Number.double.infinity = d := by
        rw [← beq_iff_eq.1 infinite, ofMagnitude_magnitude]
      cases sign : d.isNegative with
      | true => exact .inr (.inl ⟨by rw [← sign, same], rfl⟩)
      | false => exact .inr (.inr (.inl ⟨by rw [← sign, same], rfl⟩))
    · next other =>
      refine .inr (.inr (.inr ⟨?_, String.toList_ofList⟩))
      unfold isNaN at number
      unfold isInfinite at other
      simp only [decide_eq_true_eq, beq_iff_eq] at number other
      exact decide_eq_true (by omega)

theorem isBare_of_mem_text {d : Double} {c : Char} (member : c ∈ d.text.toList) :
    isBare c = true := by
  have word {w : String} (all : w.toList.all isBare = true) (same : d.text = w) :
      isBare c = true :=
    List.all_eq_true.1 all c (same ▸ member)
  rcases text_cases d with ⟨_, same⟩ | ⟨_, same⟩ | ⟨_, same⟩ | ⟨_, same⟩
  · exact word (by decide) same
  · exact word (by decide) same
  · exact word (by decide) same
  · rw [same] at member
    exact isBare_of_mem_finiteText member

theorem text_ne_nil (d : Double) : d.text.toList ≠ [] := by
  rcases text_cases d with ⟨_, same⟩ | ⟨_, same⟩ | ⟨_, same⟩ | ⟨_, same⟩
  · rw [same]; decide
  · rw [same]; decide
  · rw [same]; decide
  · obtain ⟨c, rest, split, _⟩ := exists_digit_of_finiteText d
    rw [same, split]
    exact List.cons_ne_nil c rest

/-- A double that is written as an integer is read back as the double. -/
theorem eq_ofText_of_text {d : Double} {n : Int64} (same : d.text = integerText n) :
    d = ofText (integerText n).toList := by
  have word {w : String} (other : integer? w.toList = none) : d.text ≠ w := by
    rintro equal
    have read := integer?_eq_some_iff.2 (congrArg String.toList (same ▸ equal).symm)
    rw [other] at read
    cases read
  rcases text_cases d with ⟨_, equal⟩ | ⟨_, equal⟩ | ⟨_, equal⟩ | ⟨finite, equal⟩
  · exact absurd equal (word (by decide))
  · exact absurd equal (word (by decide))
  · exact absurd equal (word (by decide))
  · rw [← same, equal, ofText_finiteText finite]

end Double

end Gremlin
