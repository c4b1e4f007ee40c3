/-!
# Quoted literals

A string argument of a statement stands between single quotes. A verbatim
literal holds the text as it is; an escaped literal has a backslash before each
backslash and each single quote, so that the quote which ends it can be told
from the quotes inside.

Results:
1. `toList_quote_escaped`: what an escaped literal consists of.
-/

namespace Gremlin

/-- How a string argument becomes a literal. -/
inductive Quoting
  /-- The text stands between the quotes unchanged. -/
  | verbatim
  /-- Backslashes and single quotes are marked by a backslash. -/
  | escaped
  deriving DecidableEq, Repr

namespace Quoting

/-! ## Definitions -/

/-- The characters that an escaped literal marks. -/
def isSpecial (c : Char) : Bool := c == '\\' || c == '\''

/-- Puts a backslash before each special character. -/
def escape : List Char → List Char
  | [] => []
  | c :: rest => if isSpecial c then '\\' :: c :: escape rest else c :: escape rest

/-- The text between the quotes of a literal. -/
def body : Quoting → List Char → List Char
  | .verbatim, cs => cs
  | .escaped, cs => escape cs

/-- The single-quoted literal of a text. -/
def quote (q : Quoting) (text : String) : String :=
  "'" ++ String.ofList (q.body text.toList) ++ "'"

/-- The literals of several texts, with commas and no blanks between them. -/
def quoteAll (q : Quoting) (items : List String) : String :=
  ",".intercalate (items.map q.quote)

/-! ## Lemmas -/

@[simp] theorem toList_quote_escaped (text : String) :
    (escaped.quote text).toList = '\'' :: (escape text.toList ++ ['\'']) := by
  simp [quote, body]

example : escaped.quote "it's \\" = "'it\\'s \\\\'" := by decide

end Quoting

end Gremlin
