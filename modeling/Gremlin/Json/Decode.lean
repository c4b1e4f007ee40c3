import Gremlin.Argument
import Gremlin.Config
import Gremlin.Json.Sequence
import Gremlin.Json.Tagged

/-!
# Reading the library's types

Readers for the JSON forms of values, identifiers, predicates, tokens, quoting and
configurations. Objects admit their fields in any order; fields that are not known
are skipped. A configuration may leave fields out, and a call may not. Both may also
be written as a list of their fields in order.

Results:
1. `validate_of_load`: a configuration that is loaded has a valid source.
-/

namespace Gremlin

namespace Json

/-! ## Tagged values -/

/-- A variant that carries one value. -/
def Variant.ofValue {α β : Type} (name : String) (read : Reader α) (make : α → β) : Variant β where
  name := name
  bare := .error (.wrongType .bareVariant .variantOfValue)
  read cs := (read cs).map fun (a, rest) => (make a, rest)

/-- A variant that carries nothing. It may be written with a null. -/
def Variant.ofNothing {β : Type} (name : String) (b : β) : Variant β where
  name := name
  bare := .ok b
  read cs := (readNull cs).map fun (_, rest) => (b, rest)

theorem shrinks_map {α β : Type} {read : Reader α} (shrinks : Shrinks read) (make : α → β) :
    Shrinks fun cs => (read cs).map fun (a, rest) => (make a, rest) := by
  intro cs b rest h
  obtain ⟨a, taken⟩ := exists_ok_of_map h
  exact shrinks taken

/-- The variants of a property value. -/
def valueVariants : List (Variant Value) :=
  [.ofValue "String" (readText .string) .string, .ofValue "Integer" readInteger .integer,
    .ofValue "Double" readDouble .double, .ofValue "Boolean" readBoolean .boolean]

/-- Takes a property value. -/
def readValue : Reader Value := readTagged valueVariants

theorem readValue_shrinks : Shrinks readValue := by
  refine readTagged_shrinks fun v member => ?_
  simp only [valueVariants, List.mem_cons, List.not_mem_nil, or_false] at member
  rcases member with rfl | rfl | rfl | rfl
  · exact shrinks_map readText_shrinks _
  · exact shrinks_map readInteger_shrinks _
  · exact shrinks_map readDouble_shrinks _
  · exact shrinks_map readBoolean_shrinks _

/-- Takes the identifier of an element. -/
def readElementId : Reader ElementId :=
  readTagged [.ofValue "Str" (readText .string) .string, .ofValue "Int" readInteger .integer]

/-- The variants of quoting. -/
def quotingVariants : List (Variant Quoting) :=
  [.ofNothing "verbatim" .verbatim, .ofNothing "escaped" .escaped]

/-- Takes a way of quoting. -/
def readQuoting : Reader Quoting := readTagged quotingVariants

theorem readQuoting_shrinks : Shrinks readQuoting := by
  refine readTagged_shrinks fun v member => ?_
  simp only [quotingVariants, List.mem_cons, List.not_mem_nil, or_false] at member
  rcases member with rfl | rfl
  · exact shrinks_map readNull_shrinks fun _ => Quoting.verbatim
  · exact shrinks_map readNull_shrinks fun _ => Quoting.escaped

/-- Takes a token. -/
def readToken : Reader Token := fun cs =>
  (readText .string cs).map fun (text, rest) => (⟨text⟩, rest)

/-! ## Calls of predicates -/

/-- Takes the arguments of a call. -/
def readArguments : Reader (List Value) := fun cs =>
  match skipBlanks cs with
  | '[' :: rest => readElements readValue readValue_shrinks true rest
  | cs => .error (unexpected .list cs)

theorem readArguments_shrinks : Shrinks readArguments := by
  intro cs a rest h
  have blanks := skipBlanks_length_le cs
  unfold readArguments at h
  split at h
  · next start =>
    have := readElements_length_le h
    simp only [start, List.length_cons] at blanks
    omega
  · simp at h

/-- The fields of a call that have been seen. -/
structure CallFields where
  name : Option String := none
  args : Option (List Value) := none

/-- Takes a field of a call. -/
def callField (name : String) (state : CallFields) : Reader CallFields :=
  if name = "name" then
    readField name state.name (readText .string) fun text => { state with name := some text }
  else if name = "args" then
    readField name state.args readArguments fun args => { state with args := some args }
  else skipField state

theorem callField_shrinks (name : String) (state : CallFields) :
    Shrinks (callField name state) := by
  unfold callField
  split
  · exact readField_shrinks readText_shrinks
  · split
    · exact readField_shrinks readArguments_shrinks
    · exact skipField_shrinks

/-- Takes a call that is written as a list of its name and its arguments. -/
def readCallPair : Reader Comparer :=
  readNext true (readText .string)
    (fun rest => .error (.before (.wrongLength 0 .callPair) rest)) fun name =>
  readNext false readArguments
    (fun rest => .error (.before (.wrongLength 1 .callPair) rest)) fun args cs =>
  (closeList cs).map (.call name args, ·)

/-- Takes a call. -/
def readCall : Reader Comparer := fun cs =>
  match skipBlanks cs with
  | '[' :: rest => readCallPair rest
  | '\x7b' :: rest =>
    match readMembers callField callField_shrinks true {} rest with
    | .error f => .error f
    | .ok (⟨none, _⟩, rest) => .error (.before (.missingField "name") rest)
    | .ok (⟨some _, none⟩, rest) => .error (.before (.missingField "args") rest)
    | .ok (⟨some name, some args⟩, rest) => .ok (.call name args, rest)
  | cs => .error (unexpected .call cs)

/-- Takes a predicate. -/
def readComparer : Reader Comparer :=
  readTagged
    [.ofValue "Raw" (readText .string) .raw,
      { name := "Call", bare := .error (.wrongType .bareVariant .variantOfFields),
        read := readCall }]

/-! ## Configurations -/

/-- The fields of a configuration that have been seen. -/
structure ConfigFields where
  source : Option String := none
  quoting : Option Quoting := none
  dottedEdgeSource : Option Bool := none

/-- The configuration of some fields; the others have their defaults. -/
def ConfigFields.toConfig (fields : ConfigFields) : Config where
  source := fields.source.getD ({} : Config).source
  quoting := fields.quoting.getD ({} : Config).quoting
  dottedEdgeSource := fields.dottedEdgeSource.getD ({} : Config).dottedEdgeSource

/-- Takes a field of a configuration. -/
def configField (name : String) (state : ConfigFields) : Reader ConfigFields :=
  if name = "source" then
    readField name state.source (readText .string) fun text => { state with source := some text }
  else if name = "quoting" then
    readField name state.quoting readQuoting fun q => { state with quoting := some q }
  else if name = "dotted_edge_source" then
    readField name state.dottedEdgeSource readBoolean fun b =>
      { state with dottedEdgeSource := some b }
  else skipField state

theorem configField_shrinks (name : String) (state : ConfigFields) :
    Shrinks (configField name state) := by
  unfold configField
  split
  · exact readField_shrinks readText_shrinks
  · split
    · exact readField_shrinks readQuoting_shrinks
    · split
      · exact readField_shrinks readBoolean_shrinks
      · exact skipField_shrinks

/-- Takes the fields of a configuration from a list, in order. -/
def readConfigList : Reader ConfigFields :=
  readNext true (readText .string) (fun rest => .ok ({}, rest)) fun source =>
  readNext false readQuoting (fun rest => .ok ({ source := some source }, rest)) fun quoting =>
  readNext false readBoolean
    (fun rest => .ok ({ source := some source, quoting := some quoting }, rest)) fun dotted cs =>
  (closeList cs).map (⟨some source, some quoting, some dotted⟩, ·)

/-- Takes a configuration. -/
def readConfig : Reader Config := fun cs =>
  match skipBlanks cs with
  | '[' :: rest => (readConfigList rest).map fun (fields, rest) => (fields.toConfig, rest)
  | '\x7b' :: rest =>
    (readMembers configField configField_shrinks true {} rest).map
      fun (fields, rest) => (fields.toConfig, rest)
  | cs => .error (unexpected .config cs)

/-! ## Whole texts -/

/-- Reads a text that holds one value and blanks. -/
def readAll {α : Type} (read : Reader α) (text : String) : Except Fault α :=
  match read text.toList with
  | .error f => .error f
  | .ok (a, rest) =>
    match skipBlanks rest with
    | [] => .ok a
    | rest => .error (.within .trailingCharacters rest)

end Json

/-! ## Types of the library -/

/-- Reads the JSON form. -/
def Value.ofJson : String → Except Json.Fault Value := Json.readAll Json.readValue

/-- Reads the JSON form. -/
def ElementId.ofJson : String → Except Json.Fault ElementId := Json.readAll Json.readElementId

/-- Reads the JSON form. -/
def Comparer.ofJson : String → Except Json.Fault Comparer := Json.readAll Json.readComparer

/-- Reads the JSON form. -/
def Token.ofJson : String → Except Json.Fault Token := Json.readAll Json.readToken

/-- Reads the JSON form. -/
def Quoting.ofJson : String → Except Json.Fault Quoting := Json.readAll Json.readQuoting

/-- Reads the JSON form, whatever the source is. -/
def Config.ofJson : String → Except Json.Fault Config := Json.readAll Json.readConfig

/-- Reads a configuration and checks its source. -/
def Config.load (text : String) : Except Error Config :=
  match Config.ofJson text with
  | .error f => .error (.unreadableConfig (f.message text))
  | .ok c => c.validate

theorem Config.validate_of_load {text : String} {c : Config} (h : load text = .ok c) :
    c.validate = .ok c := by
  unfold load at h
  split at h
  · simp at h
  · exact validate_eq_ok_iff.2 ⟨(validate_eq_ok_iff.1 h).2 ▸ (validate_eq_ok_iff.1 h).1, rfl⟩

end Gremlin
