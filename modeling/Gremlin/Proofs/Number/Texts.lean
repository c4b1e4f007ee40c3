import Gremlin.Number.Parse
import Gremlin.Proofs.Json.Written
import Gremlin.Proofs.Number.FewestDigits

/-!
# The texts of decimals

What the two layouts write for a decimal without needless zeros, as a form and as a number.
Both write all the digits of the decimal, so that its exact value is read from either text.

Results:
1. `isPlain_write`, `isPointed_write`, `isScientific_write`: the form of the texts.
2. `parse?_plain`, `parse?_json`: the decimals that are read from them.
3. `significantDigits_write`: how many digits matter in a positional text.
-/

namespace Gremlin.Number

open Json (IsDigits IsWhole IsFraction IsPower IsExponent IsNumeral)

/-! ## Definitions -/

/-- Digits, the last of which is not a zero. -/
def IsTrimmed (cs : List Char) : Prop :=
  ∃ ds d, (∀ c ∈ ds, c.isDigit = true) ∧ d.isDigit = true ∧ d ≠ '0' ∧ cs = ds ++ [d]

/-- A whole number without a needless zero in front, perhaps with a point and digits that do not
end in a zero. -/
def IsPlain (cs : List Char) : Prop :=
  ∃ whole fraction, IsWhole whole ∧ (fraction = [] ∨ ∃ ds, IsTrimmed ds ∧ fraction = '.' :: ds) ∧
    cs = whole ++ fraction

/-- A whole number with a point behind it, and then one zero or digits that do not end in a
zero. -/
def IsPointed (cs : List Char) : Prop :=
  ∃ whole fraction, IsWhole whole ∧ (fraction = ['0'] ∨ IsTrimmed fraction) ∧
    cs = whole ++ '.' :: fraction

/-- A digit other than zero, perhaps with a point and digits that do not end in a zero, and an
exponent. -/
def IsScientific (cs : List Char) : Prop :=
  ∃ d fraction power, d.isDigit = true ∧ d ≠ '0' ∧
    (fraction = [] ∨ ∃ ds, IsTrimmed ds ∧ fraction = '.' :: ds) ∧ IsPower power ∧
    cs = d :: (fraction ++ 'e' :: power)

/-- How many digits there are from the first that is not a zero to the last that is not. -/
def significantDigits (cs : List Char) : Nat :=
  (((cs.filter Char.isDigit).dropWhile (· == '0')).reverse.dropWhile (· == '0')).length

/-- Zero, or a decimal whose coefficient does not end in a zero. -/
def Decimal.Reduced (d : Decimal) : Prop := d = ⟨0, 0⟩ ∨ d.coefficient % 10 ≠ 0

/-- The decimal of all digits of a text in JSON: a whole number has a zero behind the point. -/
def Decimal.inJson (d : Decimal) : Decimal :=
  match d.exponent with
  | .ofNat n =>
    if Layout.json.positional ((digits d.coefficient).length + n) then
      ⟨d.coefficient * 10 ^ (n + 1), -1⟩
    else d
  | .negSucc _ => d

/-! ## Digits -/

theorem digits_eq_append (n : Nat) : ∃ ds, digits n = ds ++ [Nat.digitChar (n % 10)] := by
  rw [digits, Nat.toDigits_eq_if (by decide)]
  split
  · next small => exact ⟨[], by rw [Nat.mod_eq_of_lt small, List.nil_append]⟩
  · exact ⟨_, rfl⟩

theorem digitChar_ne_zero {k : Nat} (small : k < 10) (nonzero : k ≠ 0) :
    Nat.digitChar k ≠ '0' := by
  have all : ∀ k < 10, k ≠ 0 → Nat.digitChar k ≠ '0' := by decide
  exact all k small nonzero

theorem ne_zero_of_mod_ten {n : Nat} (last : n % 10 ≠ 0) : n ≠ 0 := fun zero =>
  last (by rw [zero])

/-- Whole numbers other than zero do not begin with a zero. -/
theorem ne_zero_of_digits_eq_cons {n : Nat} {c : Char} {ds : List Char} (nonzero : n ≠ 0)
    (split : digits n = c :: ds) : c ≠ '0' := by
  rintro rfl
  exact nonzero (Json.eq_zero_of_head_digits (by rw [split]; rfl))

theorem isWhole_digit {c : Char} (digit : c.isDigit = true) (other : c ≠ '0') : IsWhole [c] :=
  ⟨⟨by simp, by simp [digit]⟩, fun zero => absurd (Option.some.inj zero) other⟩

theorem isTrimmed_digits {n : Nat} (last : n % 10 ≠ 0) : IsTrimmed (digits n) := by
  obtain ⟨ds, split⟩ := digits_eq_append n
  have digit {c : Char} (member : c ∈ ds ++ [Nat.digitChar (n % 10)]) : c.isDigit = true :=
    isDigit_of_mem_digits (split ▸ member)
  exact ⟨ds, _, fun c member => digit (List.mem_append_left _ member),
    digit (List.mem_append_right _ List.mem_cons_self),
    digitChar_ne_zero (Nat.mod_lt _ (by decide)) last, split⟩

theorem IsTrimmed.append {cs front : List Char} (trimmed : IsTrimmed cs)
    (digits : ∀ c ∈ front, c.isDigit = true) : IsTrimmed (front ++ cs) := by
  obtain ⟨ds, d, all, digit, nonzero, rfl⟩ := trimmed
  refine ⟨front ++ ds, d, fun c member => ?_, digit, nonzero, (List.append_assoc _ _ _).symm⟩
  exact (List.mem_append.1 member).elim (digits c) (all c)

theorem IsTrimmed.drop {cs : List Char} (trimmed : IsTrimmed cs) {n : Nat} (some : n < cs.length) :
    IsTrimmed (cs.drop n) := by
  obtain ⟨ds, d, all, digit, nonzero, rfl⟩ := trimmed
  rw [List.length_append, List.length_singleton] at some
  refine ⟨ds.drop n, d, fun c member => all c (List.mem_of_mem_drop member), digit, nonzero, ?_⟩
  rw [List.drop_append_of_le_length (by omega)]

theorem IsTrimmed.isDigits {cs : List Char} (trimmed : IsTrimmed cs) : IsDigits cs := by
  obtain ⟨ds, d, all, digit, -, rfl⟩ := trimmed
  refine ⟨by simp, fun c member => ?_⟩
  rcases List.mem_append.1 member with inside | last
  · exact all c inside
  · exact List.mem_singleton.1 last ▸ digit

/-- The front of a whole number is a whole number. -/
theorem isWhole_take {cs : List Char} (whole : IsWhole cs) {n : Nat} (some : 0 < n) :
    IsWhole (cs.take n) := by
  obtain ⟨⟨nonempty, all⟩, zero⟩ := whole
  obtain ⟨c, rest, rfl⟩ := List.exists_cons_of_ne_nil nonempty
  obtain ⟨m, rfl⟩ := Nat.exists_eq_succ_of_ne_zero (Nat.ne_of_gt some)
  refine ⟨⟨by simp, fun d member => all d (List.mem_of_mem_take member)⟩, fun first => ?_⟩
  have alone := zero first
  simp_all

theorem isDigits_digits_zeros (n k : Nat) : IsDigits (digits n ++ zeros k) :=
  ⟨by simp [digits, Nat.toDigits_ne_nil], fun _ => isDigit_of_mem_digits_zeros⟩

/-- Zeros behind a whole number that is not zero. -/
theorem isWhole_digits_zeros {n : Nat} (nonzero : n ≠ 0) (k : Nat) :
    IsWhole (digits n ++ zeros k) := by
  refine ⟨isDigits_digits_zeros n k, fun zero => ?_⟩
  obtain ⟨c, rest, split, -⟩ := exists_digit_of_digits n
  rw [split] at zero
  exact absurd (Option.some.inj zero) (ne_zero_of_digits_eq_cons nonzero split)

/-! ## The form of the texts -/

/-- A positional text with digits behind the point. -/
theorem positionalText_negSucc {l : Layout} {n : Nat} (k : Nat) (last : n % 10 ≠ 0) :
    ∃ whole fraction, IsWhole whole ∧ IsTrimmed fraction ∧
      l.positionalText (digits n) (.negSucc k) = whole ++ '.' :: fraction := by
  unfold Layout.positionalText
  dsimp only
  split
  · next inside =>
    refine ⟨_, _, isWhole_take (Json.isWhole_digits n) (by omega),
      (isTrimmed_digits last).drop (by omega), rfl⟩
  · exact ⟨['0'], _, ⟨⟨by simp, by simp⟩, fun _ => rfl⟩,
      (isTrimmed_digits last).append fun _ => isDigit_of_mem_zeros, rfl⟩

theorem isPlain_write {d : Decimal} (reduced : d.Reduced) : IsPlain (Layout.plain.write d) := by
  rcases reduced with rfl | last
  · exact ⟨['0'], [], ⟨⟨by simp, by simp⟩, fun _ => rfl⟩, .inl rfl, by decide⟩
  · obtain ⟨n, exponent⟩ := d
    show IsPlain (Layout.plain.positionalText (digits n) exponent)
    cases exponent with
    | ofNat k =>
      exact ⟨_, [], isWhole_digits_zeros (ne_zero_of_mod_ten last) k, .inl rfl, rfl⟩
    | negSucc k =>
      obtain ⟨whole, fraction, isWhole, trimmed, same⟩ :=
        positionalText_negSucc (l := .plain) k last
      exact ⟨whole, _, isWhole, .inr ⟨fraction, trimmed, rfl⟩, same⟩

theorem isPower_exponentText (k : Int) : IsPower (exponentText k) := by
  have all (n : Nat) : IsDigits (digits n) := (Json.isWhole_digits n).1
  cases k with
  | ofNat n => exact ⟨['+'], _, .inr (.inl rfl), all n, rfl⟩
  | negSucc n => exact ⟨['-'], _, .inr (.inr rfl), all (n + 1), rfl⟩

/-- The point behind the first digit of a scientific text, if there are more digits. -/
def pointed : List Char → List Char
  | [] => []
  | ds => '.' :: ds

theorem scientificText_cons (c : Char) (ds : List Char) (exponent : Int) :
    Layout.scientificText (c :: ds) exponent =
      c :: (pointed ds ++ 'e' :: exponentText (exponent + ds.length)) := by
  cases ds with
  | nil => simp [Layout.scientificText, pointed]
  | cons d ds => simp [Layout.scientificText, pointed]

theorem isScientific_scientificText {n : Nat} (last : n % 10 ≠ 0) (exponent : Int) :
    IsScientific (Layout.scientificText (digits n) exponent) := by
  obtain ⟨c, ds, split, digit⟩ := exists_digit_of_digits n
  have trimmed := isTrimmed_digits last
  have first := ne_zero_of_digits_eq_cons (ne_zero_of_mod_ten last) split
  rw [split] at trimmed ⊢
  rw [scientificText_cons]
  refine ⟨c, pointed ds, _, digit, first, ?_, isPower_exponentText _, rfl⟩
  cases ds with
  | nil => exact .inl rfl
  | cons d ds => exact .inr ⟨d :: ds, trimmed.drop (n := 1) (by simp), rfl⟩

/-- The form of a text in JSON depends on where the point of the decimal stands. -/
theorem isPointed_write {d : Decimal} (reduced : d.Reduced)
    (positional : Layout.json.positional ((digits d.coefficient).length + d.exponent) = true) :
    IsPointed (Layout.json.write d) := by
  unfold Layout.write
  rw [if_pos positional]
  rcases reduced with rfl | last
  · exact ⟨['0'], ['0'], ⟨⟨by simp, by simp⟩, fun _ => rfl⟩, .inl rfl, by decide⟩
  · obtain ⟨n, exponent⟩ := d
    cases exponent with
    | ofNat k =>
      exact ⟨_, ['0'], isWhole_digits_zeros (ne_zero_of_mod_ten last) k, .inl rfl, rfl⟩
    | negSucc k =>
      obtain ⟨whole, fraction, isWhole, trimmed, same⟩ := positionalText_negSucc (l := .json) k last
      exact ⟨whole, fraction, isWhole, .inr trimmed, same⟩

example : Layout.json.write ⟨15, 14⟩ = "1500000000000000.0".toList := by decide

theorem isScientific_write {d : Decimal} (reduced : d.Reduced)
    (positional : Layout.json.positional ((digits d.coefficient).length + d.exponent) = false) :
    IsScientific (Layout.json.write d) := by
  unfold Layout.write
  rw [if_neg (by simp [positional])]
  rcases reduced with rfl | last
  · exact absurd positional (by decide)
  · exact isScientific_scientificText last _

example : Layout.json.write ⟨15, 15⟩ = "1.5e+16".toList := by decide

theorem IsPointed.isNumeral {cs : List Char} (form : IsPointed cs) : IsNumeral cs := by
  obtain ⟨whole, fraction, isWhole, tail, rfl⟩ := form
  refine ⟨whole, '.' :: fraction, [], isWhole, .inr ⟨fraction, ?_, rfl⟩, .inl rfl, by simp⟩
  rcases tail with rfl | trimmed
  · exact ⟨by simp, by simp⟩
  · exact trimmed.isDigits

theorem IsScientific.isNumeral {cs : List Char} (form : IsScientific cs) : IsNumeral cs := by
  obtain ⟨d, fraction, power, digit, nonzero, tail, isPower, rfl⟩ := form
  refine ⟨[d], fraction, 'e' :: power, isWhole_digit digit nonzero, ?_,
    .inr ⟨'e', power, .inl rfl, isPower, rfl⟩, by simp⟩
  exact tail.imp id fun ⟨ds, trimmed, same⟩ => ⟨ds, trimmed.isDigits, same⟩

/-! ## Digits that matter -/

theorem significantDigits_of_filter {cs : List Char} {a b n : Nat} (last : n % 10 ≠ 0)
    (split : cs.filter Char.isDigit = zeros a ++ (digits n ++ zeros b)) :
    significantDigits cs = (digits n).length := by
  have all {k : Nat} : ∀ c ∈ zeros k, (c == '0') = true := fun c member =>
    beq_iff_eq.2 (List.eq_of_mem_replicate member)
  obtain ⟨c, ds, front, digit⟩ := exists_digit_of_digits n
  obtain ⟨es, back⟩ := digits_eq_append n
  have first : (c == '0') = false :=
    beq_eq_false_iff_ne.2 (ne_zero_of_digits_eq_cons (ne_zero_of_mod_ten last) front)
  have final : (Nat.digitChar (n % 10) == '0') = false :=
    beq_eq_false_iff_ne.2 (digitChar_ne_zero (Nat.mod_lt _ (by decide)) last)
  have head : (digits n ++ zeros b).dropWhile (· == '0') = digits n ++ zeros b := by
    rw [front, List.cons_append, List.dropWhile_cons_of_neg (by simp [first])]
  have tail : (digits n).reverse.dropWhile (· == '0') = (digits n).reverse := by
    rw [back, List.reverse_append, List.reverse_singleton, List.singleton_append,
      List.dropWhile_cons_of_neg (by simp [final])]
  have zeros_reverse : (zeros b).reverse = zeros b := List.reverse_replicate
  rw [significantDigits, split, List.dropWhile_append_of_pos all, head, List.reverse_append,
    zeros_reverse, List.dropWhile_append_of_pos all, tail, List.length_reverse]

theorem significantDigits_write {d : Decimal} (reduced : d.Reduced) :
    significantDigits (Layout.plain.write d) ≤ (digits d.coefficient).length := by
  rcases reduced with rfl | last
  · exact Nat.zero_le _
  · obtain ⟨n, exponent⟩ := d
    refine Nat.le_of_eq ?_
    have keep {ds : List Char} (all : ∀ c ∈ ds, c.isDigit = true) : ds.filter Char.isDigit = ds :=
      List.filter_eq_self.2 all
    have ofDigits : ∀ c ∈ digits n, c.isDigit = true := fun c => isDigit_of_mem_digits
    have ofZeros (k : Nat) : ∀ c ∈ zeros k, c.isDigit = true := fun c => isDigit_of_mem_zeros
    show significantDigits (Layout.plain.positionalText (digits n) exponent) = _
    cases exponent with
    | ofNat k =>
      refine significantDigits_of_filter (a := 0) (b := k) last ?_
      show (digits n ++ zeros k ++ []).filter Char.isDigit = digits n ++ zeros k
      rw [List.append_nil, List.filter_append, keep ofDigits, keep (ofZeros k)]
    | negSucc k =>
      unfold Layout.positionalText
      dsimp only
      split
      · refine significantDigits_of_filter (a := 0) (b := 0) last ?_
        rw [List.filter_append, List.filter_cons_of_neg (by decide), ← List.filter_append,
          List.take_append_drop, keep ofDigits]
        exact (List.append_nil _).symm
      · refine significantDigits_of_filter (a := k + 1 - (digits n).length + 1) (b := 0) last ?_
        rw [List.filter_cons_of_pos (by decide), List.filter_cons_of_neg (by decide),
          List.filter_append, keep ofDigits, keep (ofZeros _)]
        exact congrArg (fun ds => '0' :: (zeros _ ++ ds)) (List.append_nil _).symm

/-! ## Reading -/

theorem whole?_eq_some {ds : List Char} (isDigits : IsDigits ds) :
    whole? ds = some (Nat.ofDigitChars 10 ds 0) :=
  if_pos ⟨isDigits.1, List.all_eq_true.2 isDigits.2⟩

theorem exponent?_exponentText (k : Int) : exponent? ('e' :: exponentText k) = some k := by
  have read (n : Nat) : whole? (digits n) = some n := by
    rw [whole?_eq_some (Json.isWhole_digits n).1, ofDigitChars_digits]
  cases k with
  | ofNat n => simp [exponent?, exponentText, signed?, read]
  | negSucc n => simp [exponent?, exponentText, signed?, read, Int.negSucc_eq]

/-- What follows the digits of a numeral begins with neither a digit nor a point. -/
def StopsDigits (cs : List Char) : Prop := ∀ c ∈ cs.head?, c.isDigit = false ∧ c ≠ '.'

theorem parse?_whole {whole exponent : List Char} (isWhole : IsDigits whole)
    (stops : StopsDigits exponent) : Decimal.parse? (whole ++ exponent) =
      (exponent? exponent).map fun e => ⟨Nat.ofDigitChars 10 whole 0, e⟩ := by
  have stop : Json.startsWithDigit exponent = false := by
    cases exponent with
    | nil => rfl
    | cons c cs => exact (stops c rfl).1
  have run := Json.digitRun_append isWhole.2 stop
  have behind := Json.behindDigits_append isWhole.2 stop
  have fraction : splitFraction exponent = ([], exponent) := by
    cases exponent with
    | nil => rfl
    | cons c cs =>
      unfold splitFraction
      split
      · next point => exact absurd (List.cons.inj point).1 (stops c rfl).2
      · rfl
  unfold Json.digitRun at run
  unfold Json.behindDigits at behind
  simp [Decimal.parse?, run, behind, fraction, isWhole.1]

theorem parse?_fraction {whole fraction exponent : List Char} (isWhole : IsDigits whole)
    (digits : ∀ c ∈ fraction, c.isDigit = true) (stops : StopsDigits exponent) :
    Decimal.parse? (whole ++ '.' :: (fraction ++ exponent)) =
      (exponent? exponent).map fun e =>
        ⟨Nat.ofDigitChars 10 (whole ++ fraction) 0, e - fraction.length⟩ := by
  have stop : Json.startsWithDigit exponent = false := by
    cases exponent with
    | nil => rfl
    | cons c cs => exact (stops c rfl).1
  have run : Json.digitRun (whole ++ '.' :: (fraction ++ exponent)) = whole :=
    Json.digitRun_append isWhole.2 rfl
  have behind : Json.behindDigits (whole ++ '.' :: (fraction ++ exponent)) =
      '.' :: (fraction ++ exponent) := Json.behindDigits_append isWhole.2 rfl
  have run' := Json.digitRun_append digits stop
  have behind' := Json.behindDigits_append digits stop
  unfold Json.digitRun at run run'
  unfold Json.behindDigits at behind behind'
  simp [Decimal.parse?, splitFraction, run, behind, run', behind', isWhole.1]

theorem stopsDigits_nil : StopsDigits [] := by simp [StopsDigits]

theorem stopsDigits_exponent (cs : List Char) : StopsDigits ('e' :: cs) := by
  simp [StopsDigits]

theorem isDigits_digits (n : Nat) : IsDigits (digits n) := (Json.isWhole_digits n).1

/-- Digits behind a point are read with their places. -/
theorem parse?_positionalText (l : Layout) (n k : Nat) :
    Decimal.parse? (l.positionalText (digits n) (.negSucc k)) = some ⟨n, .negSucc k⟩ := by
  obtain ⟨whole, fraction, text, nonempty, all, length, value⟩ := positionalText_split l n k
  have read := parse?_fraction ⟨nonempty, fun c member => all c (List.mem_append_left _ member)⟩
    (fun c member => all c (List.mem_append_right _ member)) stopsDigits_nil
  rw [List.append_nil] at read
  rw [text, read, exponent?, Option.map_some, value, length, Int.zero_sub]
  rfl

/-- The decimal of a positional text without a mark behind whole numbers. -/
theorem parse?_plain (d : Decimal) :
    ∃ e, Decimal.parse? (Layout.plain.write d) = some e ∧ e.value = d.value := by
  obtain ⟨n, exponent⟩ := d
  show ∃ e, Decimal.parse? (Layout.plain.positionalText (digits n) exponent) = some e ∧ _
  cases exponent with
  | ofNat k =>
    have read := parse?_whole (isDigits_digits_zeros n k) stopsDigits_nil
    rw [ofDigitChars_digits_zeros] at read
    refine ⟨_, read, ?_⟩
    simp [Decimal.value]
  | negSucc k => exact ⟨_, parse?_positionalText _ n k, rfl⟩

example : Decimal.parse? (Layout.plain.write ⟨15, 3⟩) = some ⟨15000, 0⟩ := by decide

/-- The exponent of a scientific text counts the digits behind the point too. -/
theorem parse?_scientificText (n : Nat) (k : Int) :
    Decimal.parse? (Layout.scientificText (digits n) k) = some ⟨n, k⟩ := by
  have digits := isDigits_digits n
  have value := ofDigitChars_digits n
  obtain ⟨c, ds, split, digit⟩ := exists_digit_of_digits n
  rw [split] at digits value ⊢
  rw [scientificText_cons]
  cases ds with
  | nil =>
    have read := parse?_whole digits (stopsDigits_exponent (exponentText k))
    rw [exponent?_exponentText, value] at read
    simpa [pointed] using read
  | cons d ds =>
    have fraction : ∀ e ∈ d :: ds, e.isDigit = true :=
      fun e member => digits.2 e (List.mem_cons_of_mem _ member)
    have read := parse?_fraction (show IsDigits [c] by simp [IsDigits, digit]) fraction
      (stopsDigits_exponent (exponentText (k + (d :: ds).length)))
    rw [exponent?_exponentText] at read
    change _ = some (Decimal.mk (Nat.ofDigitChars 10 (c :: d :: ds) 0) _) at read
    rw [value, Int.add_sub_cancel] at read
    exact read

/-- The decimal of a text in JSON. -/
theorem parse?_json (d : Decimal) : Decimal.parse? (Layout.json.write d) = some d.inJson := by
  obtain ⟨n, exponent⟩ := d
  unfold Layout.write
  dsimp only
  split
  · next positional =>
    cases exponent with
    | ofNat k =>
      have read := parse?_fraction (isDigits_digits_zeros n k)
        (show ∀ c ∈ ['0'], c.isDigit = true by simp) stopsDigits_nil
      rw [Nat.ofDigitChars_append, ofDigitChars_digits_zeros] at read
      have same : Decimal.inJson ⟨n, .ofNat k⟩ = ⟨n * 10 ^ (k + 1), -1⟩ := if_pos positional
      refine read.trans ?_
      rw [same, exponent?, Option.map_some]
      simp [Nat.ofDigitChars_cons, Nat.pow_succ]
      ring
    | negSucc k => exact parse?_positionalText _ n k
  · next scientific =>
    have same : Decimal.inJson ⟨n, exponent⟩ = ⟨n, exponent⟩ := by
      cases exponent with
      | ofNat k => exact if_neg scientific
      | negSucc k => rfl
    rw [same]
    exact parse?_scientificText n exponent

/-- The zero behind the point changes nothing. -/
theorem value_inJson (d : Decimal) : d.inJson.value = d.value := by
  obtain ⟨n, exponent⟩ := d
  cases exponent with
  | negSucc k => rfl
  | ofNat k =>
    unfold Decimal.inJson
    dsimp only
    split
    · show ((n * 10 ^ (k + 1) : Nat) : ℚ) * 10 ^ (-1 : Int) = (n : ℚ) * 10 ^ ((k : Nat) : Int)
      rw [Nat.cast_mul, Nat.cast_pow, Nat.cast_ofNat, pow_succ, zpow_natCast, zpow_neg_one]
      field_simp
    · rfl

end Gremlin.Number
