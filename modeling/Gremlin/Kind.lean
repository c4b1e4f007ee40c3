import Gremlin.Step

/-!
# The grammar of steps

What the last step of a traversal yields decides which steps can follow and what
they yield: `Kind.next?` is the transition function of that automaton. A traversal
starts at `root`, and a step that cannot follow has no successor.

Results:
1. `next?_ne_root`: no step leads back to the root.
2. `next?_add`: a new element can be added anywhere.
3. `next?_start_eq_some_iff`: a traversal starts at the root and nowhere else.
-/

namespace Gremlin

/-! ## Kinds -/

/-- What a traversal yields at its end. -/
inductive Kind
  /-- Nothing yet: the traversal has no steps. -/
  | root
  /-- The element that was just added. -/
  | added
  /-- Vertices, or a figure computed from the results. -/
  | vertex
  /-- Edges. -/
  | edge
  /-- Groups that wait to be told what they go by. -/
  | group
  deriving DecidableEq, Repr

namespace Kind

/-- The name under which a kind is shown. -/
def name : Kind → String
  | root => "root"
  | added => "added"
  | vertex => "vertex"
  | edge => "edge"
  | group => "group"

/-- Whether the traversal has begun. -/
def isChained (k : Kind) : Bool := k != root

/-- Whether a traversal can be the goal of a `to` or `from` step. -/
def yieldsVertices (k : Kind) : Bool := k == vertex || k == added

/-- Whether a traversal yields single elements, which can be filtered and have
properties. -/
def yieldsElements (k : Kind) : Bool := k == vertex || k == edge || k == added

/-! ## Transitions -/

/-- Stays at a kind if a step is allowed there. -/
def stayIf (allowed : Bool) (k : Kind) : Option Kind := if allowed then some k else none

/-- Where a move leads. -/
def move? : Kind → Move → Option Kind
  | vertex, .outV | vertex, .inV | vertex, .out | vertex, .in_ => some vertex
  | vertex, .outE | vertex, .inE => some edge
  | edge, .outV | edge, .inV => some vertex
  | edge, .outE | edge, .inE => some edge
  | _, _ => none

/-- What the traversal yields after a step, if the step can follow. -/
def next? {γ υ : Type} (k : Kind) : Step γ υ → Option Kind
  | .start .vertex _ => if k = root then some vertex else none
  | .start .edge _ => if k = root then some edge else none
  | .add _ _ => some added
  | .move m _ => k.move? m
  | .has _ _ | .hasLabel _ | .hasId _ | .property _ _ => k.stayIf k.yieldsElements
  | .project _ _ => k.stayIf (k == vertex)
  | .mark _ => k.stayIf k.yieldsVertices
  | .modulate (.field _) => k.stayIf (k == vertex || k == group)
  | .modulate (.token _) => k.stayIf (k == group)
  | .limit _ => k.stayIf (k == edge)
  | .group => if k = vertex then some group else none
  | .general .mean => if k.isChained then some vertex else none
  | .general _ => k.stayIf k.isChained
  | .endpoint _ _ => k.stayIf (k == added || k == edge)

/-! ## Lemmas -/

theorem next?_ne_root {γ υ : Type} {k : Kind} {s : Step γ υ} : k.next? s ≠ some root := by
  cases s with
  | start e _ => cases e <;> cases k <;> simp [next?]
  | move m _ => cases m <;> cases k <;> simp [next?, move?]
  | modulate key => cases key <;> cases k <;> simp [next?, stayIf]
  | general g => cases g <;> cases k <;> simp [next?, stayIf, isChained]
  | _ => cases k <;> simp [next?, stayIf, yieldsElements, yieldsVertices]

@[simp] theorem next?_add {γ υ : Type} (k : Kind) (e : Element) (label : Option String) :
    k.next? (.add e label : Step γ υ) = some added := rfl

theorem next?_start_eq_some_iff {γ υ : Type} {k l : Kind} {e : Element} {id : Option ElementId} :
    k.next? (.start e id : Step γ υ) = some l ↔
      k = root ∧ l = (match e with | .vertex => vertex | .edge => edge) := by
  cases e <;> cases k <;> simp [next?, eq_comm]

end Kind

end Gremlin
