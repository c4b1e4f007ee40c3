import Gremlin.Quoting
import Gremlin.Single

/-!
# Values and identifiers

The arguments of steps that carry data. A string is written as a quoted literal;
numbers and truth values stand bare.
-/

namespace Gremlin

/-- The text of a 64-bit integer. -/
def integerText (n : Int64) : String := toString n.toInt

/-- A property value. -/
inductive Value
  | string (text : String)
  | integer (n : Int64)
  | double (d : Double)
  | boolean (b : Bool)
  deriving DecidableEq, BEq, Repr

namespace Value

/-- The name of the value's type. -/
def typeName : Value → String
  | string _ => "string"
  | integer _ => "int"
  | double _ => "double"
  | boolean _ => "bool"

/-- The text of a string value. -/
def asString? : Value → Option String
  | string text => some text
  | _ => none

/-- The number of an integer value. -/
def asInteger? : Value → Option Int64
  | integer n => some n
  | _ => none

/-- The argument text. -/
def text (q : Quoting) : Value → String
  | string s => q.quote s
  | integer n => integerText n
  | double d => d.text
  | boolean b => if b then "true" else "false"

end Value

/-- The identifier of a vertex or an edge. -/
inductive ElementId
  | string (id : String)
  | integer (id : Int64)
  deriving DecidableEq, Repr

namespace ElementId

/-- The argument text: a string is quoted, a number is not. -/
def text (q : Quoting) : ElementId → String
  | string id => q.quote id
  | integer id => integerText id

end ElementId

end Gremlin
