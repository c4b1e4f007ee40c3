import Gremlin.Error
import Gremlin.Quoting
import Gremlin.Text.Inspect

/-!
# Configuration of a statement

A statement is written on a traversal source, with one way of quoting, and with or
without a dot between the source and an edge step that starts the statement.

Results:
1. `validate_eq_ok_iff`: validation accepts exactly the configurations whose source
   is an identifier, and changes nothing.
-/

namespace Gremlin

/-! ## Definitions -/

/-- The traversal source of a statement that names none. -/
def defaultSource : String := "g"

/-- How a statement is written. -/
structure Config where
  /-- The traversal source. -/
  source : String := defaultSource
  /-- How string arguments are quoted. -/
  quoting : Quoting := .verbatim
  /-- Whether a dot stands between the source and a starting edge step. -/
  dottedEdgeSource : Bool := false
  deriving DecidableEq, Repr

namespace Config

/-- Letters of the ASCII alphabet and the underscore can start an identifier. -/
def startsIdentifier (c : Char) : Bool := c.isAlpha || c == '_'

/-- Digits can follow. -/
def continuesIdentifier (c : Char) : Bool := c.isAlphanum || c == '_'

/-- Whether the characters form an identifier. -/
def isIdentifier : List Char → Bool
  | [] => false
  | c :: rest => startsIdentifier c && rest.all continuesIdentifier

/-- The configuration, provided that its source is an identifier. -/
def validate (c : Config) : Except Error Config :=
  if isIdentifier c.source.toList then .ok c
  else .error (.invalidArgument ("遍历源必须是标识符: " ++ Text.inspect c.source))

/-! ## Lemmas -/

theorem validate_eq_ok_iff {c d : Config} :
    c.validate = .ok d ↔ isIdentifier c.source.toList = true ∧ d = c := by
  by_cases valid : isIdentifier c.source.toList = true
  · rw [validate, if_pos valid]
    simp [valid, eq_comm]
  · rw [validate, if_neg valid]
    simp [valid]

theorem validate_default : ({} : Config).validate = .ok {} :=
  validate_eq_ok_iff.2 ⟨by decide, rfl⟩

end Config

end Gremlin
