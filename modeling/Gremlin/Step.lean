import Gremlin.Argument
import Gremlin.Config

/-!
# Steps

A statement is a traversal source followed by steps. One type serves both for the
steps that a caller asks for and for those that a statement holds: it leaves open
what names the goal of a `to` or `from` step, and what a `has` step compares with.
-/

namespace Gremlin

/-! ## Names -/

/-- The two sorts of graph elements. -/
inductive Element
  | vertex | edge
  deriving DecidableEq, Repr

/-- Moves along edges, and between edges and vertices. -/
inductive Move
  | outV | inV | out | in_ | outE | inE
  deriving DecidableEq, Repr

/-- Steps that pick several items by name. -/
inductive Projection
  | values | select
  deriving DecidableEq, Repr

/-- The two ends of an edge. -/
inductive Endpoint
  /-- Where the edge leads to. -/
  | target
  /-- Where the edge comes from. -/
  | source
  deriving DecidableEq, Repr

/-- Steps that every traversal takes once it has begun. -/
inductive General
  | drop | dedup | count | mean
  deriving DecidableEq, Repr

/-- The step that starts on all elements of a sort. -/
def Element.startName : Element → String
  | vertex => "V"
  | edge => "E"

/-- The step that adds an element of a sort. -/
def Element.addName : Element → String
  | vertex => "addV"
  | edge => "addE"

/-- The name of the step. -/
def Move.name : Move → String
  | outV => "outV"
  | inV => "inV"
  | out => "out"
  | in_ => "in"
  | outE => "outE"
  | inE => "inE"

/-- The name of the step. -/
def Projection.name : Projection → String
  | values => "values"
  | select => "select"

/-- The name of the step. -/
def Endpoint.name : Endpoint → String
  | target => "to"
  | source => "from"

/-- The name of the step. -/
def General.name : General → String
  | drop => "drop"
  | dedup => "dedup"
  | count => "count"
  | mean => "mean"

/-! ## Steps -/

/-- A step whose goals are named by a `γ` and whose `has` arguments are a `υ`. -/
inductive Step (γ υ : Type)
  /-- All elements of a sort, or the one with an identifier. -/
  | start (element : Element) (id : Option ElementId)
  /-- A new element, with or without a label. -/
  | add (element : Element) (label : Option String)
  /-- A move, along all edges or those with a label. -/
  | move (m : Move) (label : Option String)
  /-- Only the elements whose property compares as asked. -/
  | has (name : String) (value : υ)
  /-- Only the elements with a label. -/
  | hasLabel (label : String)
  /-- Only the element with an identifier. -/
  | hasId (id : ElementId)
  /-- Sets a property. -/
  | property (name : String) (value : Value)
  /-- Picks items by name; there must be one or more. -/
  | project (p : Projection) (items : List String)
  /-- Names the current point of the traversal. -/
  | mark (name : String)
  /-- Says what the step before goes by. -/
  | modulate (key : ByKey)
  /-- Bounds the number of results. -/
  | limit (count : Int64)
  /-- Groups the results. -/
  | group
  /-- Removes, merges or condenses the results. -/
  | general (g : General)
  /-- Says which vertex an edge leads to or comes from. -/
  | endpoint (e : Endpoint) (goal : γ)
  deriving Repr

/-- Why a step cannot be appended whatever comes before it: it picks no items. -/
def Step.fault? {γ υ : Type} : Step γ υ → Option Error
  | .project p [] => some (.emptyArgumentList p.name)
  | _ => none

end Gremlin
