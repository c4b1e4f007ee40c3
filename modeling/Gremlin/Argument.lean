import Gremlin.Comparer

/-!
# Arguments of `has` and `by`

`has` compares a property with a literal or by a predicate; `by` names a field or
a token. Tokens are written without quotes.
-/

namespace Gremlin

/-- A bare word such as `T.label`. -/
structure Token where
  text : String
  deriving DecidableEq, Repr

namespace Token

/-- The identifier of an element. -/
def id : Token := ⟨"T.id"⟩

/-- The label of an element. -/
def label : Token := ⟨"T.label"⟩

/-- The key of a property. -/
def key : Token := ⟨"T.key"⟩

/-- The value of a property. -/
def value : Token := ⟨"T.value"⟩

/-- The keys of a map. -/
def keys : Token := ⟨"Column.keys"⟩

/-- The values of a map. -/
def values : Token := ⟨"Column.values"⟩

end Token

/-- What a property is compared with. -/
inductive HasValue
  | literal (text : String)
  | predicate (p : Comparer)
  deriving DecidableEq, BEq, Repr

namespace HasValue

/-- The argument text. -/
def text (q : Quoting) : HasValue → String
  | literal s => q.quote s
  | predicate p => p.text q

/-- What a caller asks a property to be compared with. -/
inductive Request
  | literal (text : String)
  | predicate (p : Comparer.Request)
  deriving Repr

/-- The argument of a request; it fails as the request for its predicate does. -/
def Request.build : Request → Except Error HasValue
  | literal text => .ok (.literal text)
  | predicate p => p.build.map .predicate

end HasValue

/-- What a grouping or an ordering goes by. -/
inductive ByKey
  | field (name : String)
  | token (t : Token)
  deriving DecidableEq, Repr

namespace ByKey

/-- The argument text: a field is quoted, a token is not. -/
def text (q : Quoting) : ByKey → String
  | field name => q.quote name
  | token t => t.text

end ByKey

end Gremlin
