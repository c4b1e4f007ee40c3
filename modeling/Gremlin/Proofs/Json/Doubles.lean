import Gremlin.Proofs.Json.Fractions
import Gremlin.Proofs.Json.RoundTrip

/-!
# Doubles are read back closely

The digits that JSON has for a finite double are exact, but the reader only scales them. The
double that is read may be a neighbour of the one that was written. It has the same sign and is
a few steps away at most, and it is the same double when the digits and the exponent are small.

Results:
1. `readsBack_double`: what is read for a double.
2. `finite_read_closely`: what is read for values and predicates whose doubles are finite.
3. `neighbour_read`: a double that is not read back.
-/

namespace Gremlin

open Number (Decimal Layout Close unsigned double)

/-! ## Definitions -/

/-- The double `e` may be read for the numeral of `d`: the decimal of the numeral bounds how many
steps there are between the two. -/
structure Double.ReadAs (d e : Double) : Prop where
  finite : e.isFinite = true
  sign : e.isNegative = d.isNegative
  close : ∃ D, Decimal.parse? (unsigned d.json.toList) = some D ∧
    Close D.roundings e.magnitude d.magnitude

/-- Values that differ by what a reader does to a double at most. -/
inductive Value.ReadAs : Value → Value → Prop
  | double {d e : Double} : d.ReadAs e → ReadAs (.double d) (.double e)
  | same {v : Value} : v.doubles = [] → ReadAs v v

/-- Predicates with the same name whose arguments differ by what a reader does to doubles. -/
inductive Comparer.ReadAs : Comparer → Comparer → Prop
  | raw (text : String) : ReadAs (.raw text) (.raw text)
  | call (name : String) {args args' : List Value} :
      List.Forall₂ Value.ReadAs args args' → ReadAs (.call name args) (.call name args')

/-! ## One double -/

namespace Double.ReadAs

variable {d e : Double} (read : d.ReadAs e)

include read

/-- There are never more than three steps. -/
theorem near : Close 3 e.magnitude d.magnitude := by
  obtain ⟨D, -, above, below⟩ := read.close
  have few : D.roundings ≤ 3 := by
    unfold Decimal.roundings
    split <;> split <;> split <;> decide
  exact ⟨Nat.le_trans above (Nat.add_le_add_left few _),
    Nat.le_trans below (Nat.add_le_add_left few _)⟩

/-- Short digits and a small exponent leave no step. -/
theorem exact {D : Decimal} (parsed : Decimal.parse? (unsigned d.json.toList) = some D)
    (short : D.coefficient ≤ 2 ^ 53) (small : D.exponent.natAbs ≤ 22) : e = d := by
  obtain ⟨D', parsed', above, below⟩ := read.close
  obtain rfl : D' = D := Option.some.inj (parsed'.symm.trans parsed)
  have none : D'.roundings = 0 := by
    rw [Decimal.roundings, if_pos short, if_pos small, if_neg (by omega)]
  rw [none] at above below
  have magnitude : e.magnitude = d.magnitude := Nat.le_antisymm above below
  rw [← Double.ofMagnitude_magnitude e, ← Double.ofMagnitude_magnitude d, read.sign, magnitude]

end Double.ReadAs

namespace Json

theorem readNumber_signed {wanted : Wanted} {negative : Bool} {c : Char} (digit : c.isDigit = true)
    (cs : List Char) : readNumber wanted ((if negative then ['-'] else []) ++ c :: cs) =
      readNumeral negative (c :: cs) := by
  cases negative with
  | true =>
    show readNumber wanted ('-' :: c :: cs) = _
    rw [readNumber, skipBlanks_cons (by decide)]
    rfl
  | false =>
    show readNumber wanted (c :: cs) = _
    rw [readNumber, skipBlanks_cons (isBlank_of_isDigit digit)]
    split
    · next minus => exact absurd (List.cons.inj minus).1 (Number.ne_minus_of_isDigit digit)
    · exact if_pos digit

/-- A finite double is read from its JSON form wherever it stands, perhaps as a neighbour. -/
theorem readsBack_double {d : Double} (finite : d.isFinite = true) :
    ∃ e, d.ReadAs e ∧ ReadsBack readDouble d.json e := by
  have less : d.magnitude < double.infinity := of_decide_eq_true finite
  have reduced := Number.Format.reduced_shortest (by decide) less Layout.json.tie
  obtain ⟨v, scaled, below, close⟩ := Number.scaled?_written less
  have codes := below.trans Double.infinity_lt_codes
  refine ⟨.ofMagnitude d.isNegative v, ⟨?_, Double.isNegative_ofMagnitude codes,
    (double.shortest Layout.json.tie d.magnitude).inJson, ?_, ?_⟩, ?_⟩
  · rw [Double.isFinite, Double.magnitude_ofMagnitude codes]
    exact decide_eq_true below
  · rw [Double.unsigned_json finite]
    exact Number.parse?_json _
  · rw [Double.magnitude_ofMagnitude codes]
    exact close
  · intro rest ended
    have numeral : readNumeral d.isNegative (Layout.json.write _ ++ rest) = _ :=
      readNumeral_json reduced (Number.coefficient_written_small less)
        (Number.exponent_written_small less) ended
    obtain ⟨c, cs, split, digit⟩ := Number.exists_digit_of_isNumeral (Number.isNumeral_json less)
    rw [split, finishNumber, scaled] at numeral
    rw [readDouble, Double.toList_json finite, Number.Format.signedText, split, List.append_assoc,
      List.cons_append, readNumber_signed digit, ← List.cons_append, numeral]
    rfl

/-! ## Values and predicates -/

theorem readsBack_finite_value {v : Value} (finite : ∀ d ∈ v.doubles, d.isFinite = true) :
    ∃ v', v.ReadAs v' ∧ ReadsBack readValue v.toJson v' := by
  cases v with
  | double d =>
    obtain ⟨e, close, back⟩ := readsBack_double (finite d List.mem_cons_self)
    exact ⟨.double e, .double close, back.ofValue rfl⟩
  | string text => exact ⟨_, .same rfl, readsBack_value rfl⟩
  | integer n => exact ⟨_, .same rfl, readsBack_value rfl⟩
  | boolean b => exact ⟨_, .same rfl, readsBack_value rfl⟩

theorem readsBack_finite_arguments {args : List Value}
    (finite : ∀ d ∈ args.flatMap Value.doubles, d.isFinite = true) :
    ∃ args', List.Forall₂ Value.ReadAs args args' ∧
      ReadsBack readArguments (list (args.map Value.toJson)) args' := by
  obtain ⟨args', close, back⟩ : ∃ args', List.Forall₂ Value.ReadAs args args' ∧
      List.Forall₂ (fun v v' => ReadsBack readValue v.toJson v') args args' := by
    induction args with
    | nil => exact ⟨[], .nil, .nil⟩
    | cons v args ih =>
      rw [List.flatMap_cons] at finite
      obtain ⟨v', close, back⟩ := readsBack_finite_value fun d member =>
        finite d (List.mem_append_left _ member)
      obtain ⟨args', close', back'⟩ := ih fun d member => finite d (List.mem_append_right _ member)
      exact ⟨v' :: args', .cons close close', .cons back back'⟩
  refine ⟨args', close, fun rest _ => ?_⟩
  rw [readArguments_list]
  exact ReadsBack.each (fun v _ => begins_value v) back true rest

theorem readsBack_finite_comparer {p : Comparer} (finite : ∀ d ∈ p.doubles, d.isFinite = true) :
    ∃ p', p.ReadAs p' ∧ ReadsBack readComparer p.toJson p' := by
  cases p with
  | raw text => exact ⟨_, .raw text, readsBack_comparer rfl⟩
  | call name args =>
    obtain ⟨args', close, back⟩ := readsBack_finite_arguments finite
    exact ⟨.call name args', .call name close, back.call.tagged rfl⟩

/-- Whatever holds finite doubles only is read from its JSON form, with the same signs and each
magnitude three steps away at most: one step for a coefficient of more than 53 binary digits, one
for an exponent beyond 22, and one more for an exponent below -308. With none of these, the double
is read back. -/
theorem finite_read_closely :
    (∀ d : Double, d.isFinite = true → ∃ e, Value.ofJson (Value.double d).toJson = .ok (.double e) ∧
      d.ReadAs e ∧ Close 3 e.magnitude d.magnitude ∧
      ∀ D, Decimal.parse? (unsigned d.json.toList) = some D → D.coefficient ≤ 2 ^ 53 →
        D.exponent.natAbs ≤ 22 → e = d) ∧
    ∀ p : Comparer, (∀ d ∈ p.doubles, d.isFinite = true) →
      ∃ p', Comparer.ofJson p.toJson = .ok p' ∧ p.ReadAs p' := by
  constructor
  · intro d finite
    obtain ⟨e, close, back⟩ := readsBack_double finite
    have value : ReadsBack readValue (Value.double d).toJson (.double e) := back.ofValue rfl
    exact ⟨e, value.readAll, close, close.near, fun D parsed short small =>
      close.exact parsed short small⟩
  · intro p finite
    obtain ⟨p', close, back⟩ := readsBack_finite_comparer finite
    exact ⟨p', back.readAll, close⟩

/-- One tenth has short digits, and a bound on a property may be any finite double. -/
theorem finite_read_closely_tenth :
    Value.ofJson (Value.double ⟨0x3fb999999999999a⟩).toJson =
      .ok (.double ⟨0x3fb999999999999a⟩) ∧
    ∃ p', Comparer.ofJson (Comparer.call "gt" [.double ⟨0x433fffffffffffff⟩]).toJson = .ok p' ∧
      (Comparer.call "gt" [.double ⟨0x433fffffffffffff⟩]).ReadAs p' := by
  obtain ⟨value, comparer⟩ := finite_read_closely
  obtain ⟨e, read, -, -, exact⟩ := value ⟨0x3fb999999999999a⟩ (by decide +kernel)
  have parsed : Decimal.parse? (unsigned (⟨0x3fb999999999999a⟩ : Double).json.toList) =
      some ⟨1, -1⟩ := by decide +kernel
  rw [exact _ parsed (by decide) (by decide)] at read
  exact ⟨read, comparer _ (by decide +kernel)⟩

/-- The largest double below two to the power of 53 is read as the one before it: its digits stand
in front of a point and a zero, so that the coefficient has one digit too many. -/
theorem neighbour_read :
    (⟨0x433fffffffffffff⟩ : Double).isFinite = true ∧
    Value.ofJson (Value.double ⟨0x433fffffffffffff⟩).toJson =
      .ok (.double ⟨0x433ffffffffffffe⟩) := by
  constructor
  · decide +kernel
  · decide +kernel

end Json

end Gremlin
