import Gremlin.Error
import Gremlin.Value

/-!
# Predicates on property values

A comparer stands in a `has` step where a literal could stand, and is written
without quotes. It is either a text of the caller's own, or a call of a predicate
whose arguments are written when the step is, in the quoting of the statement.

Results:
1. `Request.build_eq_error_iff`: the only requests that fail are those for
   membership in an empty list.
-/

namespace Gremlin

/-- A predicate on a property value. -/
inductive Comparer
  /-- A text that is written as it is. -/
  | raw (text : String)
  /-- A named predicate and its arguments. -/
  | call (name : String) (args : List Value)
  deriving DecidableEq, BEq, Repr

namespace Comparer

/-! ## Text -/

/-- The predicate as it is written in a step. -/
def text (q : Quoting) : Comparer → String
  | raw text => text
  | call name args => name ++ "(" ++ ",".intercalate (args.map (Value.text q)) ++ ")"

/-! ## Requests -/

/-- A comparison with one value. -/
inductive Comparison
  | eq | neq | lt | lte | gt | gte
  deriving DecidableEq, Repr

/-- A comparison with two bounds. -/
inductive Range
  | inside | outside | between
  deriving DecidableEq, Repr

/-- A test for membership in a list. -/
inductive Membership
  | within | without
  deriving DecidableEq, Repr

/-- The name of the predicate. -/
def Comparison.name : Comparison → String
  | eq => "eq"
  | neq => "neq"
  | lt => "lt"
  | lte => "lte"
  | gt => "gt"
  | gte => "gte"

/-- The name of the predicate. -/
def Range.name : Range → String
  | inside => "inside"
  | outside => "outside"
  | between => "between"

/-- The name of the predicate. -/
def Membership.name : Membership → String
  | within => "within"
  | without => "without"

/-- What a caller asks for. -/
inductive Request
  | raw (text : String)
  | compare (c : Comparison) (value : Value)
  | range (r : Range) (low high : Value)
  | member (m : Membership) (values : List Value)
  deriving Repr

/-- The comparer of a request; a list must not be empty. -/
def Request.build : Request → Except Error Comparer
  | raw text => .ok (.raw text)
  | compare c value => .ok (.call c.name [value])
  | range r low high => .ok (.call r.name [low, high])
  | member m [] => .error (.emptyArgumentList m.name)
  | member m (value :: values) => .ok (.call m.name (value :: values))

theorem Request.build_eq_error_iff {r : Request} {e : Error} :
    r.build = .error e ↔ ∃ m, r = member m [] ∧ e = .emptyArgumentList m.name := by
  cases r with
  | raw text => simp [build]
  | compare c value => simp [build]
  | range r low high => simp [build]
  | member m values => cases values <;> simp [build, eq_comm]

end Comparer

end Gremlin
