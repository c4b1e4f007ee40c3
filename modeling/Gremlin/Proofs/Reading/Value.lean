import Gremlin.Proofs.Number.Numeral

/-!
# Reading bare values

Numbers and truth values stand in a statement without quotes. Their texts tell them apart
except in two cases: a double that is written without a point looks like an integer, and
all doubles that are not a number look alike.

Results:
1. `ofBare_text`: what is read from the text of a value is the canonical form of the value.
2. `canonical_eq_iff`: two values have the same canonical form iff they are alike.
-/

namespace Gremlin.Value

/-! ## Definitions -/

/-- The values that are written as words. -/
def words : List (List Char × Value) :=
  [("true".toList, .boolean true),
   ("false".toList, .boolean false),
   ("Double.NaN".toList, .double .nan),
   ("Double.NEGATIVE_INFINITY".toList, .double (.ofMagnitude true Number.double.infinity)),
   ("Double.POSITIVE_INFINITY".toList, .double (.ofMagnitude false Number.double.infinity))]

/-- The value that is written without quotes: a word, an integer if there is one with this
text, and otherwise a double. -/
def ofBare (cs : List Char) : Value :=
  match words.lookup cs, integer? cs with
  | some v, _ => v
  | none, some n => .integer n
  | none, none => .double (.ofText cs)

/-- What the text of a value keeps of it. -/
def canonical : Value → Value
  | .double d =>
    if d.isNaN then .double .nan
    else
      match integer? d.text.toList with
      | some n => .integer n
      | none => .double d
  | v => v

/-- Values that look the same in a statement. -/
inductive Alike : Value → Value → Prop
  /-- A value looks like itself. -/
  | same (v : Value) : Alike v v
  /-- Doubles that are not a number look alike. -/
  | notNumbers {d e : Double} (left : d.isNaN = true) (right : e.isNaN = true) :
      Alike (.double d) (.double e)
  /-- An integer looks like a double with the same numeral. -/
  | integerDouble {n : Int64} {d : Double} (numeral : d.text = integerText n) :
      Alike (.integer n) (.double d)
  /-- And the other way around. -/
  | doubleInteger {n : Int64} {d : Double} (numeral : d.text = integerText n) :
      Alike (.double d) (.integer n)

/-! ## Reading -/

theorem lookup_words_eq_none {c : Char} {rest : List Char} (number : c.isDigit = true ∨ c = '-') :
    words.lookup (c :: rest) = none := by
  rw [List.lookup_eq_none_iff]
  intro pair member
  have letter : ∃ d tail, pair.1 = d :: tail ∧ d.isDigit = false ∧ d ≠ '-' := by
    simp only [words, List.mem_cons, List.not_mem_nil, or_false] at member
    rcases member with rfl | rfl | rfl | rfl | rfl
    · exact ⟨'t', _, rfl, rfl, by decide⟩
    · exact ⟨'f', _, rfl, rfl, by decide⟩
    · exact ⟨'D', _, rfl, rfl, by decide⟩
    · exact ⟨'D', _, rfl, rfl, by decide⟩
    · exact ⟨'D', _, rfl, rfl, by decide⟩
  obtain ⟨d, tail, first, noDigit, noSign⟩ := letter
  rw [first, bne_iff_ne]
  intro equal
  obtain ⟨rfl, _⟩ := List.cons.inj equal
  rcases number with digit | rfl
  · rw [noDigit] at digit
    cases digit
  · exact noSign rfl

theorem ofBare_integerText (n : Int64) : ofBare (integerText n).toList = .integer n := by
  have read : integer? (integerText n).toList = some n := integer?_eq_some_iff.2 rfl
  obtain ⟨c, rest, split, number⟩ := exists_digit_of_integerText n
  unfold ofBare
  rw [read, split, lookup_words_eq_none number]

theorem ofBare_finiteText {d : Double} (finite : d.isFinite = true)
    (written : d.text.toList = Double.finiteText .plain d) :
    ofBare d.text.toList = canonical (.double d) := by
  have number : ¬ d.isNaN = true := by
    unfold Double.isFinite at finite
    unfold Double.isNaN
    simp only [decide_eq_true_eq] at finite ⊢
    omega
  obtain ⟨c, rest, split, numeral⟩ := Double.exists_digit_of_finiteText d
  have noWord : words.lookup d.text.toList = none := by
    rw [written, split, lookup_words_eq_none numeral]
  rw [ofBare, canonical, noWord, if_neg number]
  cases integer? d.text.toList with
  | some n => rfl
  | none => exact congrArg Value.double (written ▸ Double.ofText_finiteText finite)

/-- A word for a double that is not finite. -/
theorem ofBare_word {d : Double} {w : String} (written : d.text = w) (number : d.isNaN = false)
    (listed : words.lookup w.toList = some (.double d)) (other : integer? w.toList = none) :
    ofBare d.text.toList = canonical (.double d) := by
  rw [ofBare, canonical, written, listed, other, number]
  rfl

theorem ofBare_text_double (d : Double) : ofBare d.text.toList = canonical (.double d) := by
  rcases Double.text_cases d with ⟨nan, written⟩ | ⟨rfl, written⟩ | ⟨rfl, written⟩ |
    ⟨finite, written⟩
  · rw [canonical, written, if_pos nan]
    decide
  · exact ofBare_word written (by decide) (by decide) (by decide)
  · exact ofBare_word written (by decide) (by decide) (by decide)
  · exact ofBare_finiteText finite written

/-- What is read from the text of a value without quotes is its canonical form. -/
theorem ofBare_text {v : Value} (unquoted : v.asString? = none) (q : Quoting) :
    ofBare (v.text q).toList = v.canonical := by
  cases v with
  | string s => cases unquoted
  | integer n => exact ofBare_integerText n
  | double d => exact ofBare_text_double d
  | boolean b =>
    cases b with
    | true => exact (by decide : ofBare "true".toList = canonical (.boolean true))
    | false => exact (by decide : ofBare "false".toList = canonical (.boolean false))

theorem isBare_of_mem_text {v : Value} (unquoted : v.asString? = none) (q : Quoting) {c : Char}
    (member : c ∈ (v.text q).toList) : isBare c = true := by
  cases v with
  | string s => cases unquoted
  | integer n => exact isBare_of_mem_integerText member
  | double d => exact Double.isBare_of_mem_text member
  | boolean b =>
    have all : (if b then "true" else "false").toList.all isBare = true := by cases b <;> decide
    exact List.all_eq_true.1 all c member

/-! ## What is lost -/

/-- The doubles whose text is that of an integer. -/
theorem canonical_double_of_numeral {d : Double} {n : Int64} (numeral : d.text = integerText n) :
    canonical (.double d) = .integer n := by
  rw [← ofBare_text_double, numeral, ofBare_integerText]

/-- The canonical form of a double. -/
theorem canonical_double_cases (d : Double) :
    (d.isNaN = true ∧ canonical (.double d) = .double .nan) ∨
    (∃ n, d.text = integerText n ∧ canonical (.double d) = .integer n) ∨
    (d.isNaN = false ∧ canonical (.double d) = .double d) := by
  cases number : d.isNaN with
  | true => exact .inl ⟨rfl, by rw [canonical, if_pos number]⟩
  | false =>
    cases read : integer? d.text.toList with
    | some n =>
      have numeral : d.text = integerText n := String.toList_inj.1 (integer?_eq_some_iff.1 read)
      exact .inr (.inl ⟨n, numeral, canonical_double_of_numeral numeral⟩)
    | none => exact .inr (.inr ⟨rfl, by simp [canonical, number, read]⟩)

theorem Alike.canonical_eq {v w : Value} (alike : Alike v w) : v.canonical = w.canonical := by
  cases alike with
  | same v => rfl
  | notNumbers left right => simp [canonical, left, right]
  | integerDouble numeral => exact (canonical_double_of_numeral numeral).symm
  | doubleInteger numeral => exact canonical_double_of_numeral numeral

theorem alike_double {d e : Double} (equal : canonical (.double d) = canonical (.double e)) :
    Alike (.double d) (.double e) := by
  have nan : Double.isNaN .nan = true := by decide
  rcases canonical_double_cases d with ⟨left, formD⟩ | ⟨n, left, formD⟩ | ⟨left, formD⟩ <;>
    rcases canonical_double_cases e with ⟨right, formE⟩ | ⟨m, right, formE⟩ | ⟨right, formE⟩ <;>
    rw [formD, formE] at equal
  · exact .notNumbers left right
  · cases equal
  · rw [← Value.double.inj equal, nan] at right
    cases right
  · cases equal
  · cases equal
    rw [Double.eq_ofText_of_text left, Double.eq_ofText_of_text right]
    exact .same _
  · cases equal
  · rw [Value.double.inj equal, nan] at left
    cases left
  · cases equal
  · cases equal
    exact .same _

theorem alike_double_of_canonical {d : Double} {v : Value}
    (equal : canonical (.double d) = v.canonical) : Alike (.double d) v := by
  cases v with
  | double e => exact alike_double equal
  | integer n =>
    rcases canonical_double_cases d with ⟨_, form⟩ | ⟨m, numeral, form⟩ | ⟨_, form⟩ <;>
      rw [form] at equal <;> cases equal
    exact .doubleInteger numeral
  | string _ | boolean _ =>
    -- A double is never written as a literal or as a truth value.
    rcases canonical_double_cases d with ⟨_, form⟩ | ⟨m, numeral, form⟩ | ⟨_, form⟩ <;>
      rw [form] at equal <;> cases equal

theorem Alike.symm {v w : Value} (alike : Alike v w) : Alike w v := by
  cases alike with
  | same v => exact .same v
  | notNumbers left right => exact .notNumbers right left
  | integerDouble numeral => exact .doubleInteger numeral
  | doubleInteger numeral => exact .integerDouble numeral

/-- Two values have the same canonical form iff they are alike. -/
theorem canonical_eq_iff {v w : Value} : v.canonical = w.canonical ↔ v.Alike w := by
  refine ⟨fun equal => ?_, Alike.canonical_eq⟩
  cases v with
  | double d => exact alike_double_of_canonical equal
  | _ =>
    cases w with
    | double e => exact (alike_double_of_canonical equal.symm).symm
    | _ =>
      simp only [canonical] at equal
      cases equal <;> exact .same _

end Gremlin.Value
