import Gremlin.Proofs.Reading.Reader
import Gremlin.Statement

/-!
# Reading statements

One function reads every statement whose literals are escaped: the longest identifier at
the front is the source, unless a parenthesis follows it at once. Then its last character
is the name of an edge step without a dot. After the source stand the steps, each with a
name that says how its arguments are read, and the goal of a `to` or `from` step is read
as a statement of its own.

Results:
1. `ofName?_name`: the name of a step decides which step it is.
2. `reading_eq`: a reading keeps the source and, step by step, the steps.
-/

namespace Gremlin

open Reader

/-! ## Names of steps -/

/-- What the name of a step says about it. -/
inductive Head
  | start (element : Element)
  | add (element : Element)
  | move (m : Move)
  | has | hasLabel | hasId | property
  | project (p : Projection)
  | mark | modulate | limit | group
  | general (g : General)
  | endpoint (e : Endpoint)
  deriving DecidableEq, Repr

namespace Head

/-- The name of the step. -/
def name : Head → String
  | start e => e.startName
  | add e => e.addName
  | move m => m.name
  | has => "has"
  | hasLabel => "hasLabel"
  | hasId => "hasId"
  | property => "property"
  | project p => p.name
  | mark => "as"
  | modulate => "by"
  | limit => "limit"
  | group => "group"
  | general g => g.name
  | endpoint e => e.name

/-- All steps. -/
def all : List Head :=
  [start .vertex, start .edge, add .vertex, add .edge,
   move .outV, move .inV, move .out, move .in_, move .outE, move .inE,
   has, hasLabel, hasId, property, project .values, project .select,
   mark, modulate, limit, group,
   general .drop, general .dedup, general .count, general .mean,
   endpoint .target, endpoint .source]

/-- The step of a name. -/
def ofName? (cs : List Char) : Option Head := all.find? (·.name.toList == cs)

theorem mem_all (h : Head) : h ∈ all := by
  cases h with
  | start e => cases e <;> decide
  | add e => cases e <;> decide
  | move m => cases m <;> decide
  | project p => cases p <;> decide
  | general g => cases g <;> decide
  | endpoint e => cases e <;> decide
  | _ => decide

/-- What is checked for all steps holds for every step. -/
theorem of_all {p : Head → Bool} (checked : all.all p = true) (h : Head) : p h = true :=
  List.all_eq_true.1 checked h h.mem_all

/-- The name of a step decides which step it is. -/
theorem ofName?_name (h : Head) : ofName? h.name.toList = some h :=
  of_decide_eq_true (of_all (p := fun h => ofName? h.name.toList = some h) (by decide) h)

theorem isBare_of_mem_name {h : Head} {c : Char} (member : c ∈ h.name.toList) :
    isBare c = true := by
  have every : h.name.toList.all isBare = true :=
    of_all (p := fun h => h.name.toList.all isBare) (by decide) h
  exact List.all_eq_true.1 every c member

end Head

/-- The name under which a step is written. -/
def Step.head {γ υ : Type} : Step γ υ → Head
  | .start e _ => .start e
  | .add e _ => .add e
  | .move m _ => .move m
  | .has _ _ => .has
  | .hasLabel _ => .hasLabel
  | .hasId _ => .hasId
  | .property _ _ => .property
  | .project p _ => .project p
  | .mark _ => .mark
  | .modulate _ => .modulate
  | .limit _ => .limit
  | .group => .group
  | .general g => .general g
  | .endpoint e _ => .endpoint e

/-! ## Readings -/

/-- What is read from the text of a statement. -/
structure Reading where
  /-- The traversal source. -/
  source : String
  /-- The steps, with the readings of their goals. -/
  steps : List (Step Reading HasValue)

/-- The values of a predicate in canonical form. -/
def HasValue.canonical : HasValue → HasValue
  | .predicate (.call name args) => .predicate (.call name (args.map Value.canonical))
  | value => value

namespace Statement

mutual

/-- What can be read from the text of a statement: its source and its steps, down to the
statements that its steps lead to. -/
def reading : Statement → Reading
  | ⟨config, steps⟩ => ⟨config.source, readings steps⟩

/-- What can be read of the steps. -/
def readings : List AppendedStep → List (Step Reading HasValue)
  | [] => []
  | step :: rest => stepReading step :: readings rest

/-- What can be read of a step: the step, but for values that look alike. -/
def stepReading : AppendedStep → Step Reading HasValue
  | .start e id => .start e id
  | .add e label => .add e label
  | .move m label => .move m label
  | .has name value => .has name value.canonical
  | .hasLabel label => .hasLabel label
  | .hasId id => .hasId id
  | .property name value => .property name value.canonical
  | .project p items => .project p items
  | .mark name => .mark name
  | .modulate key => .modulate key
  | .limit count => .limit count
  | .group => .group
  | .general g => .general g
  | .endpoint e goal => .endpoint e goal.reading

end

theorem readings_eq_map (steps : List AppendedStep) : readings steps = steps.map stepReading := by
  induction steps with
  | nil => rw [readings, List.map_nil]
  | cons step rest ih => rw [readings, List.map_cons, ih]

theorem reading_eq (s : Statement) :
    s.reading = ⟨s.config.source, s.steps.map stepReading⟩ := by
  obtain ⟨config, steps⟩ := s
  rw [reading, readings_eq_map]

end Statement

/-! ## Reading arguments -/

/-- Reads a string. -/
def stringReader : Reader String := atom some fun _ => none

/-- Reads an identifier of an element. -/
def idReader : Reader ElementId :=
  atom (fun s => some (.string s)) fun cs => (integer? cs).map .integer

/-- Reads a property value. -/
def valueReader : Reader Value :=
  atom (fun s => some (.string s)) fun cs => some (.ofBare cs)

/-- Reads what a grouping goes by. -/
def keyReader : Reader ByKey :=
  atom (fun s => some (.field s)) fun cs => some (.token ⟨String.ofList cs⟩)

/-- Reads a number of results. -/
def countReader : Reader Int64 := atom (fun _ => none) integer?

/-- Reads the call of a predicate. -/
def callReader : Reader Comparer := fun cs =>
  map (.call (String.ofList (cs.takeWhile isBare))) (enclosed (listed valueReader))
    (cs.dropWhile isBare)

/-- Reads what a property is compared with: a literal if there is a quote. -/
def comparedReader : Reader HasValue
  | '\'' :: cs => map .literal stringReader ('\'' :: cs)
  | cs => map .predicate callReader cs

/-- Reads the arguments of a step by its name. -/
def Head.arguments (goal : Reader Reading) : Head → Reader (Step Reading HasValue)
  | .start e => map (.start e) (optional idReader)
  | .add e => map (.add e) (optional stringReader)
  | .move m => map (.move m) (optional stringReader)
  | .has => map (fun (name, value) => .has name value) (pair stringReader comparedReader)
  | .hasLabel => map .hasLabel stringReader
  | .hasId => map .hasId idReader
  | .property => map (fun (name, value) => .property name value) (pair stringReader valueReader)
  | .project p => map (.project p) (listed stringReader)
  | .mark => map .mark stringReader
  | .modulate => map .modulate keyReader
  | .limit => map .limit countReader
  | .group => fun cs => some (.group, cs)
  | .general g => fun cs => some (.general g, cs)
  | .endpoint e => map (.endpoint e) goal

/-! ## Reading statements -/

/-- Reads the name of a step: a word after a dot, or the edge step without a dot. -/
def headReader : Reader Head
  | '.' :: cs => (Head.ofName? (cs.takeWhile isBare)).map (·, cs.dropWhile isBare)
  | 'E' :: rest => some (.start .edge, rest)
  | _ => none

/-- Reads a step. -/
def stepReader (goal : Reader Reading) : Reader (Step Reading HasValue) := fun cs =>
  match headReader cs with
  | some (h, rest) => enclosed (h.arguments goal) rest
  | none => none

/-- The length of the source at the front of a text. -/
def sourceLength (cs : List Char) : Nat :=
  match cs.dropWhile Config.continuesIdentifier with
  | '(' :: _ => (cs.takeWhile Config.continuesIdentifier).length - 1
  | _ => (cs.takeWhile Config.continuesIdentifier).length

/-- Reads a statement. The number bounds how deep the goals of its steps are nested. -/
def statementReader : Nat → Reader Reading
  | 0, _ => none
  | n + 1, cs =>
    let k := sourceLength cs
    map (⟨String.ofList (cs.take k), ·⟩) (many (stepReader (statementReader n)) cs.length)
      (cs.drop k)

/-- What is read from a text, if it is the text of a statement. -/
def decode (text : String) : Option Reading :=
  match statementReader (text.toList.length + 1) text.toList with
  | some (r, []) => some r
  | _ => none

end Gremlin
