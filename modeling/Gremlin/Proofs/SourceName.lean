import Gremlin.Config
import Mathlib.Tactic.Simproc.ExistsAndEq
import Mathlib.Tactic.Tauto

/-!
# Names of sources

The source of a statement is an identifier: a letter or an underscore, and then letters,
digits and underscores, all of the ASCII alphabet.

Results:
1. `isSourceName_iff`: the check of a source is the grammar of identifiers.
2. `validate_eq_error_iff`: what is said of a source that is no identifier.
-/

namespace Gremlin

/-! ## Definitions -/

/-- A letter of the ASCII alphabet, or an underscore. -/
def IsNameLetter (c : Char) : Prop := ('A' ≤ c ∧ c ≤ 'Z') ∨ ('a' ≤ c ∧ c ≤ 'z') ∨ c = '_'

/-- A text of the form `[A-Za-z_][A-Za-z0-9_]*`. -/
def IsSourceName (text : String) : Prop :=
  ∃ first rest, text.toList = first :: rest ∧ IsNameLetter first ∧
    ∀ c ∈ rest, IsNameLetter c ∨ ('0' ≤ c ∧ c ≤ '9')

/-! ## The check -/

namespace Config

theorem startsIdentifier_iff {c : Char} : startsIdentifier c = true ↔ IsNameLetter c := by
  -- What the library's classes of characters come to.
  have starts : startsIdentifier c =
      (decide ('A' ≤ c ∧ c ≤ 'Z') || (decide ('a' ≤ c) && decide (c ≤ 'z')) || c == '_') := rfl
  simp only [starts, IsNameLetter, Bool.or_eq_true, Bool.and_eq_true, decide_eq_true_eq,
    beq_iff_eq, or_assoc]

theorem continuesIdentifier_iff {c : Char} :
    continuesIdentifier c = true ↔ IsNameLetter c ∨ ('0' ≤ c ∧ c ≤ '9') := by
  rw [← startsIdentifier_iff]
  simp only [continuesIdentifier, startsIdentifier, Char.isAlphanum, Char.isDigit, Char.le_def,
    Bool.or_eq_true, Bool.and_eq_true, decide_eq_true_eq]
  tauto

/-- The check of a source is the grammar of identifiers. -/
theorem isSourceName_iff {text : String} :
    isIdentifier text.toList = true ↔ IsSourceName text := by
  unfold IsSourceName
  cases text.toList with
  | nil => simp [isIdentifier]
  | cons first rest =>
    simp [isIdentifier, startsIdentifier_iff, continuesIdentifier_iff]

theorem validate_eq_ok_iff_isSourceName {c d : Config} :
    c.validate = .ok d ↔ IsSourceName c.source ∧ d = c := by
  rw [validate_eq_ok_iff, isSourceName_iff]

/-- What is said of a source that is no identifier. -/
theorem validate_eq_error_iff {c : Config} {e : Error} :
    c.validate = .error e ↔ ¬IsSourceName c.source ∧
      e = .invalidArgument ("遍历源必须是标识符: " ++ Text.inspect c.source) := by
  rw [← isSourceName_iff, validate]
  split
  · next valid => simp [valid]
  · next invalid => simp [invalid, eq_comm]

end Config

theorem IsSourceName.ne_empty {text : String} (name : IsSourceName text) : text ≠ "" := by
  obtain ⟨first, rest, split, _⟩ := name
  rintro rfl
  simp at split

end Gremlin
