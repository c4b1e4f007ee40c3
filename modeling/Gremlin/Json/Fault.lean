import Gremlin.Double
import Gremlin.Text.Inspect

/-!
# Faults in JSON texts

A fault is a cause and a place. Reading only ever looks at what is left of a text,
so a place is told by the number of bytes that are left; `Position.of` turns it
into a line and a column once the whole text is known.
-/

namespace Gremlin.Json

/-! ## Causes -/

/-- What the text ended inside of. -/
inductive Unfinished
  | value | list | object | string
  deriving DecidableEq, Repr

/-- What stands where something else was wanted. -/
inductive Found
  | null
  | boolean (b : Bool)
  | integer (n : Int)
  | real (d : Double)
  | string (text : String)
  | list
  | object
  /-- A bare variant name. -/
  | bareVariant
  deriving DecidableEq, Repr

/-- What is wanted. -/
inductive Wanted
  | string
  | boolean
  | null
  | integer
  | real
  | list
  | config
  | call
  /-- A call written as a list of its two parts. -/
  | callPair
  /-- A variant that carries one value. -/
  | variantOfValue
  /-- A variant that carries named fields. -/
  | variantOfFields
  deriving DecidableEq, Repr

/-- What is wrong at some place of a text. -/
inductive Cause
  | unfinished (u : Unfinished)
  | noValue
  | brokenWord
  | noColon
  | noCommaOrBrace
  | noCommaOrBracket
  | keyNotString
  | trailingCharacters
  | trailingComma
  | badNumber
  | numberOutOfRange
  | badEscape
  | controlCharacter
  | loneSurrogate
  | halfSurrogatePair
  | wrongType (found : Found) (wanted : Wanted)
  | wrongInteger (n : Int)
  | unknownVariant (name : String) (known : List String)
  | repeatedField (name : String)
  | missingField (name : String)
  | wrongLength (length : Nat) (wanted : Wanted)
  deriving DecidableEq, Repr

/-- The three ways in which a text fails. -/
inductive Category
  /-- The text ends too soon. -/
  | truncated
  /-- The text is not JSON, or not of a form that the type admits. -/
  | malformed
  /-- The text is JSON for something else. -/
  | mistyped
  deriving DecidableEq, Repr

/-! ## Messages -/

/-- The name of what was left unfinished. -/
def Unfinished.name : Unfinished → String
  | value => "a value"
  | list => "a list"
  | object => "an object"
  | string => "a string"

/-- How something found is described. -/
def Found.description : Found → String
  | null => "null"
  | boolean b => "boolean `" ++ (if b then "true" else "false") ++ "`"
  | integer n => "integer `" ++ toString n ++ "`"
  | real d => "floating point `" ++ d.json ++ "`"
  | string text => "string " ++ Text.inspect text
  | list => "sequence"
  | object => "map"
  | bareVariant => "unit variant"

/-- How something wanted is described. -/
def Wanted.description : Wanted → String
  | string => "a string"
  | boolean => "a boolean"
  | null => "unit"
  | integer => "i64"
  | real => "f64"
  | list => "a sequence"
  | config => "struct StatementConfig"
  | call => "struct variant Predicate::Call"
  | callPair => "struct variant Predicate::Call with 2 elements"
  | variantOfValue => "newtype variant"
  | variantOfFields => "struct variant"

/-- Names that can stand in one place. -/
def alternatives : List String → String
  | [a] => "`" ++ a ++ "`"
  | [a, b] => "`" ++ a ++ "` or `" ++ b ++ "`"
  | names => "one of " ++ ", ".intercalate (names.map fun name => "`" ++ name ++ "`")

namespace Cause

/-- The message of a cause, without a place. -/
def message : Cause → String
  | unfinished u => "EOF while parsing " ++ u.name
  | noValue => "expected value"
  | brokenWord => "expected ident"
  | noColon => "expected `:`"
  | noCommaOrBrace => "expected `,` or `\x7d`"
  | noCommaOrBracket => "expected `,` or `]`"
  | keyNotString => "key must be a string"
  | trailingCharacters => "trailing characters"
  | trailingComma => "trailing comma"
  | badNumber => "invalid number"
  | numberOutOfRange => "number out of range"
  | badEscape => "invalid escape"
  | controlCharacter => "control character (\\u0000-\\u001F) found while parsing a string"
  | loneSurrogate => "lone leading surrogate in hex escape"
  | halfSurrogatePair => "unexpected end of hex escape"
  | wrongType found wanted =>
    "invalid type: " ++ found.description ++ ", expected " ++ wanted.description
  | wrongInteger n =>
    "invalid value: " ++ (Found.integer n).description ++ ", expected " ++
      Wanted.integer.description
  | unknownVariant name known =>
    "unknown variant `" ++ name ++ "`, expected " ++ alternatives known
  | repeatedField name => "duplicate field `" ++ name ++ "`"
  | missingField name => "missing field `" ++ name ++ "`"
  | wrongLength length wanted =>
    "invalid length " ++ toString length ++ ", expected " ++ wanted.description

/-- The way in which a cause makes a text fail. -/
def category : Cause → Category
  | unfinished _ => .truncated
  | wrongType _ _ | wrongInteger _ | unknownVariant _ _ | repeatedField _ | missingField _
  | wrongLength _ _ => .mistyped
  | _ => .malformed

end Cause

/-! ## Places -/

/-- The number of bytes of some characters. -/
def size : List Char → Nat
  | [] => 0
  | c :: rest => c.utf8Size + size rest

/-- A cause, and how many bytes of the text are left where it shows. -/
structure Fault where
  cause : Cause
  left : Nat
  deriving DecidableEq, Repr

namespace Fault

/-- A fault that shows in front of what is left. -/
def before (cause : Cause) (rest : List Char) : Fault := ⟨cause, size rest⟩

/-- A fault that shows in the next byte, or at the end of the text. -/
def within (cause : Cause) (rest : List Char) : Fault := ⟨cause, size rest - 1⟩

/-- The text ends inside of something. -/
def ends (u : Unfinished) : Fault := ⟨.unfinished u, 0⟩

end Fault

/-- A line, counted from one, and the number of bytes before a place on it. -/
structure Position where
  line : Nat
  column : Nat
  deriving DecidableEq, Repr

namespace Position

/-- Advances over a number of bytes of a text. -/
def advance (p : Position) : Nat → List Char → Position
  | 0, _ => p
  | _, [] => p
  | n + 1, c :: rest =>
    let next : Position :=
      if c = '\n' then ⟨p.line + 1, 0⟩ else ⟨p.line, p.column + min c.utf8Size (n + 1)⟩
    next.advance (n + 1 - c.utf8Size) rest

/-- The place that has a number of bytes of the text left behind it. -/
def of (text : List Char) (left : Nat) : Position :=
  advance ⟨1, 0⟩ (size text - left) text

/-- How a place is named at the end of a message. -/
def description (p : Position) : String :=
  " at line " ++ toString p.line ++ " column " ++ toString p.column

end Position

/-- The message of a fault in a text. -/
def Fault.message (f : Fault) (text : String) : String :=
  f.cause.message ++ (Position.of text.toList f.left).description

end Gremlin.Json
