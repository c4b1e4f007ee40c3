import Gremlin.Argument
import Gremlin.Config

/-!
# Writing JSON

The compact JSON form of the library's types. A value that has variants is an
object whose only key names the variant; a token is a bare string.
-/

namespace Gremlin

namespace Json

/-! ## Strings -/

/-- The four hexadecimal digits of a character below 256. -/
def codeUnit (c : Char) : List Char :=
  ['0', '0', Nat.digitChar (c.toNat / 16), Nat.digitChar (c.toNat % 16)]

/-- How a character is written between double quotes. -/
def escapeChar (c : Char) : List Char :=
  if c = '"' then ['\\', '"']
  else if c = '\\' then ['\\', '\\']
  else if c = '\x08' then ['\\', 'b']
  else if c = '\x0c' then ['\\', 'f']
  else if c = '\n' then ['\\', 'n']
  else if c = '\r' then ['\\', 'r']
  else if c = '\t' then ['\\', 't']
  else if c.toNat < 0x20 then '\\' :: 'u' :: codeUnit c
  else [c]

/-- The characters between the double quotes. -/
def escape (cs : List Char) : List Char := cs.flatMap escapeChar

/-- A string in double quotes. -/
def string (text : String) : String :=
  "\"" ++ String.ofList (escape text.toList) ++ "\""

/-! ## Compounds -/

/-- An object of members that are written already. -/
def object (members : List (String × String)) : String :=
  "\x7b" ++ ",".intercalate (members.map fun (key, value) => string key ++ ":" ++ value) ++ "\x7d"

/-- A list of elements that are written already. -/
def list (elements : List String) : String := "[" ++ ",".intercalate elements ++ "]"

/-- An object whose only key names a variant. -/
def tagged (name value : String) : String := object [(name, value)]

/-- A truth value. -/
def boolean (b : Bool) : String := if b then "true" else "false"

end Json

/-! ## Types of the library -/

/-- The JSON form. -/
def Value.toJson : Value → String
  | string text => Json.tagged "String" (Json.string text)
  | integer n => Json.tagged "Integer" (integerText n)
  | double d => Json.tagged "Double" d.json
  | boolean b => Json.tagged "Boolean" (Json.boolean b)

/-- The JSON form. -/
def ElementId.toJson : ElementId → String
  | string id => Json.tagged "Str" (Json.string id)
  | integer id => Json.tagged "Int" (integerText id)

/-- The JSON form. -/
def Comparer.toJson : Comparer → String
  | raw text => Json.tagged "Raw" (Json.string text)
  | call name args =>
    Json.tagged "Call" (Json.object
      [("name", Json.string name), ("args", Json.list (args.map Value.toJson))])

/-- The JSON form. -/
def Token.toJson (t : Token) : String := Json.string t.text

/-- The name of a way of quoting. -/
def Quoting.name : Quoting → String
  | verbatim => "verbatim"
  | escaped => "escaped"

/-- The JSON form. -/
def Quoting.toJson (q : Quoting) : String := Json.string q.name

/-- The JSON form. -/
def Config.toJson (c : Config) : String :=
  Json.object
    [("source", Json.string c.source), ("quoting", c.quoting.toJson),
      ("dotted_edge_source", Json.boolean c.dottedEdgeSource)]

end Gremlin
