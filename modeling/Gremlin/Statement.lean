import Gremlin.Step

/-!
# Statements

A statement is a configuration and the steps appended so far, oldest first. Its
text is the traversal source followed by one fragment for each step. The goal of a
`to` or `from` step is a whole statement as it was when the step was appended, and
is written in its own configuration.

Results:
1. `text_append`: appending a step adds the fragment of that step at the end.
-/

namespace Gremlin

/-- A configuration and the steps appended so far. -/
structure Statement where
  config : Config
  steps : List (Step Statement HasValue)

/-- A step as a statement holds it. -/
abbrev AppendedStep := Step Statement HasValue

namespace Statement

/-! ## Text -/

/-- The text of an argument that may be absent. -/
def optionalText {α : Type} (write : α → String) : Option α → String
  | none => ""
  | some a => write a

/-- A step after a dot, with its arguments in parentheses. -/
def callText (name args : String) : String := "." ++ name ++ "(" ++ args ++ ")"

/-- What stands between the source and a starting edge step. -/
def edgeSeparator (c : Config) : String := if c.dottedEdgeSource then "." else ""

mutual

/-- The text of a statement. -/
def text : Statement → String
  | ⟨config, steps⟩ => config.source ++ fragments config steps

/-- The text of the steps. -/
def fragments (c : Config) : List AppendedStep → String
  | [] => ""
  | step :: rest => fragment c step ++ fragments c rest

/-- The text of one step. -/
def fragment (c : Config) : AppendedStep → String
  | .start .vertex id => callText "V" (optionalText (ElementId.text c.quoting) id)
  | .start .edge id =>
    edgeSeparator c ++ "E(" ++ optionalText (ElementId.text c.quoting) id ++ ")"
  | .add e label => callText e.addName (optionalText c.quoting.quote label)
  | .move m label => callText m.name (optionalText c.quoting.quote label)
  | .has name value => callText "has" (c.quoting.quote name ++ "," ++ value.text c.quoting)
  | .hasLabel label => callText "hasLabel" (c.quoting.quote label)
  | .hasId id => callText "hasId" (id.text c.quoting)
  | .property name value =>
    callText "property" (c.quoting.quote name ++ "," ++ value.text c.quoting)
  | .project p items => callText p.name (c.quoting.quoteAll items)
  | .mark name => callText "as" (c.quoting.quote name)
  | .modulate key => callText "by" (key.text c.quoting)
  | .limit count => callText "limit" (integerText count)
  | .group => callText "group" ""
  | .general g => callText g.name ""
  | .endpoint e goal => callText e.name goal.text

end

/-! ## Appending -/

/-- A statement without steps. -/
def ofConfig (c : Config) : Statement := ⟨c, []⟩

/-- The statement with one more step. -/
def append (s : Statement) (step : AppendedStep) : Statement :=
  ⟨s.config, s.steps ++ [step]⟩

/-! ## Lemmas -/

@[simp] theorem config_append (s : Statement) (step : AppendedStep) :
    (s.append step).config = s.config := rfl

@[simp] theorem steps_append (s : Statement) (step : AppendedStep) :
    (s.append step).steps = s.steps ++ [step] := rfl

theorem text_eq (s : Statement) : s.text = s.config.source ++ fragments s.config s.steps := by
  cases s
  rw [text]

@[simp] theorem text_ofConfig (c : Config) : (ofConfig c).text = c.source := by
  simp [text_eq, ofConfig, fragments]

theorem fragments_append (c : Config) (a b : List AppendedStep) :
    fragments c (a ++ b) = fragments c a ++ fragments c b := by
  induction a with
  | nil => simp [fragments]
  | cons step rest ih => simp [fragments, ih, String.append_assoc]

theorem text_append (s : Statement) (step : AppendedStep) :
    (s.append step).text = s.text ++ fragment s.config step := by
  simp [text_eq, fragments_append, fragments, String.append_assoc]

end Statement

end Gremlin
