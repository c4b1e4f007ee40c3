import Gremlin.Text.Hidden

/-!
# Inspected text

The form in which a message shows a text exactly: between double quotes, with
quotes, backslashes and the four common control characters marked by a
backslash, and any other character that does not show written as its code point
in hexadecimal.
-/

namespace Gremlin.Text

/-- A code point as `\u` and lowercase hexadecimal digits between braces. -/
def codePoint (c : Char) : List Char :=
  '\\' :: 'u' :: '\x7b' :: (Nat.toDigits 16 c.toNat ++ ['\x7d'])

/-- How one character is shown inside the double quotes. -/
def inspectChar (c : Char) : List Char :=
  if c = '\x00' then ['\\', '0']
  else if c = '\t' then ['\\', 't']
  else if c = '\n' then ['\\', 'n']
  else if c = '\r' then ['\\', 'r']
  else if c = '"' then ['\\', '"']
  else if c = '\\' then ['\\', '\\']
  else if isHidden c then codePoint c
  else [c]

/-- The text between the double quotes. -/
def inspectBody (cs : List Char) : List Char := cs.flatMap inspectChar

/-- A text in double quotes, with all that would not show spelled out. -/
def inspect (text : String) : String :=
  "\"" ++ String.ofList (inspectBody text.toList) ++ "\""

end Gremlin.Text
