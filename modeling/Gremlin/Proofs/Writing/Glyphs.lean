import Gremlin.Proofs.Reading.RoundTrip
import Mathlib.Data.String.Basic

/-!
# Where the characters of a statement come from

The text of a statement is made of glyphs: characters that remember whether a string
argument put them there. Names of steps, numbers, tokens, predicates of the caller's own,
punctuation and the quotes around literals are bare; labels, property names, string
identifiers and values, items and fields are quoted. Which glyphs a statement has does not
depend on how it is quoted, and escaping puts a backslash before some of the quoted ones.

Results:
1. `write_verbatim_eq_write_escaped_iff`: the two spellings are the same if nothing is
   escaped.
2. `toList_text_requote`: the text of a statement that is quoted alike throughout spells
   its glyphs.
3. `quotedChars_glyphs`: the quoted glyphs are the characters of the string arguments.
4. `specials_append_endpoint`: the string arguments of a goal count again where it is
   embedded.
-/

namespace Gremlin

/-! ## Glyphs -/

/-- A character of a text, and whether a string argument put it there. -/
structure Glyph where
  char : Char
  quoted : Bool
  deriving DecidableEq, Repr

namespace Glyph

/-- Whether escaping puts a backslash before the glyph. -/
def isEscaped (g : Glyph) : Bool := g.quoted && (g.char == '\\' || g.char == '\'')

/-- How a glyph is written. -/
def spell : Quoting → Glyph → List Char
  | .verbatim, g => [g.char]
  | .escaped, g => if g.isEscaped then ['\\', g.char] else [g.char]

/-- How glyphs are written. -/
def write (q : Quoting) (glyphs : List Glyph) : List Char := glyphs.flatMap (spell q)

/-- A text that no string argument put there. -/
def bare (text : String) : List Glyph := text.toList.map (⟨·, false⟩)

/-- A literal: the quotes around it are bare. -/
def literal (text : String) : List Glyph :=
  bare "'" ++ text.toList.map (⟨·, true⟩) ++ bare "'"

/-- Parts with commas between them. -/
def listed (parts : List (List Glyph)) : List Glyph := (bare ",").intercalate parts

/-! ## Spelling -/

theorem isEscaped_quoted (c : Char) : isEscaped ⟨c, true⟩ = Quoting.isSpecial c := rfl

@[simp] theorem write_append (q : Quoting) (a b : List Glyph) :
    write q (a ++ b) = write q a ++ write q b :=
  List.flatMap_append

theorem write_cons (q : Quoting) (g : Glyph) (rest : List Glyph) :
    write q (g :: rest) = spell q g ++ write q rest :=
  List.flatMap_cons

@[simp] theorem write_bare (q : Quoting) (text : String) : write q (bare text) = text.toList := by
  have single (c : Char) : spell q ⟨c, false⟩ = [c] := by cases q <;> simp [spell, isEscaped]
  simp [write, bare, List.flatMap_map, single]

/-- The glyphs between the quotes spell the body of the literal. -/
theorem write_quoted (q : Quoting) (cs : List Char) :
    write q (cs.map (⟨·, true⟩)) = q.body cs := by
  cases q with
  | verbatim => simp [write, spell, List.flatMap_map, Quoting.body]
  | escaped =>
    rw [Quoting.body]
    induction cs with
    | nil => rfl
    | cons c rest ih =>
      rw [List.map_cons, write_cons, ih, spell, isEscaped_quoted, Quoting.escape]
      split <;> rfl

@[simp] theorem write_literal (q : Quoting) (text : String) :
    write q (literal text) = (q.quote text).toList := by
  simp [literal, write_quoted, Quoting.quote]

theorem write_listed (q : Quoting) (parts : List (List Glyph)) :
    write q (listed parts) = [','].intercalate (parts.map (write q)) := by
  unfold listed
  induction parts with
  | nil => rfl
  | cons part rest ih =>
    cases rest with
    | nil => simp
    | cons next others =>
      rw [List.intercalate_cons_cons, write_append, write_append, ih, write_bare]
      simp [List.intercalate_cons_cons]

theorem write_verbatim (glyphs : List Glyph) : write .verbatim glyphs = glyphs.map char :=
  List.map_eq_flatMap.symm

/-! ## Characters of string arguments -/

/-- The characters that string arguments put there. -/
def quotedChars (glyphs : List Glyph) : List Char := (glyphs.filter quoted).map char

@[simp] theorem quotedChars_append (a b : List Glyph) :
    quotedChars (a ++ b) = quotedChars a ++ quotedChars b := by
  simp [quotedChars]

@[simp] theorem quotedChars_bare (text : String) : quotedChars (bare text) = [] := by
  simp [quotedChars, bare]

@[simp] theorem quotedChars_literal (text : String) :
    quotedChars (literal text) = text.toList := by
  simp [quotedChars, literal, bare, List.filter_map, Function.comp_def]

theorem quotedChars_listed (parts : List (List Glyph)) :
    quotedChars (listed parts) = parts.flatMap quotedChars := by
  unfold listed
  induction parts with
  | nil => rfl
  | cons part rest ih =>
    cases rest with
    | nil => simp
    | cons next others => simp [List.intercalate_cons_cons, ih]

/-! ## What escaping adds -/

/-- Escaped are those characters of string arguments that are special. -/
theorem countP_isEscaped (glyphs : List Glyph) :
    glyphs.countP isEscaped = (quotedChars glyphs).countP Quoting.isSpecial := by
  rw [quotedChars, List.countP_map, List.countP_filter]
  exact List.countP_congr fun g _ => by simp [isEscaped, Quoting.isSpecial, and_comm]

/-- Each glyph that is escaped makes the text longer by the one byte of a backslash. -/
theorem byteSize_write_escaped (glyphs : List Glyph) :
    (String.ofList (write .escaped glyphs)).utf8ByteSize =
      (String.ofList (write .verbatim glyphs)).utf8ByteSize + glyphs.countP isEscaped := by
  rw [String.utf8ByteSize_ofList, String.utf8ByteSize_ofList]
  induction glyphs with
  | nil => rfl
  | cons g rest ih =>
    have backslash : Char.utf8Size '\\' = 1 := rfl
    rw [write_cons, write_cons, List.countP_cons]
    cases marked : g.isEscaped with
    | true =>
      simp only [spell, marked, if_true, List.cons_append, List.nil_append, String.utf8Len_cons,
        ih, backslash]
      omega
    | false =>
      simp only [spell, marked, Bool.false_eq_true, if_false, List.cons_append, List.nil_append,
        String.utf8Len_cons, ih]
      omega

/-- The two spellings are the same if nothing is escaped, and only then. -/
theorem write_verbatim_eq_write_escaped_iff {glyphs : List Glyph} :
    write .verbatim glyphs = write .escaped glyphs ↔ glyphs.countP isEscaped = 0 := by
  constructor
  · intro same
    have size := byteSize_write_escaped glyphs
    rw [same] at size
    omega
  · intro none
    rw [List.countP_eq_zero] at none
    exact List.flatMap_congr fun g member => by simp [spell, none g member]

end Glyph

open Glyph

/-! ## Arguments -/

/-- The glyphs of a value. -/
def Value.glyphs : Value → List Glyph
  | .string text => literal text
  | .integer n => bare (integerText n)
  | .double d => bare d.text
  | .boolean b => bare (if b then "true" else "false")

/-- The glyphs of an identifier. -/
def ElementId.glyphs : ElementId → List Glyph
  | .string id => literal id
  | .integer id => bare (integerText id)

/-- The glyphs of a predicate. The name of a call is bare, as a predicate of the caller's
own is. -/
def Comparer.glyphs : Comparer → List Glyph
  | .raw text => bare text
  | .call name args => bare name ++ bare "(" ++ listed (args.map Value.glyphs) ++ bare ")"

/-- The glyphs of what a property is compared with. -/
def HasValue.glyphs : HasValue → List Glyph
  | .literal text => Glyph.literal text
  | .predicate p => p.glyphs

/-- The glyphs of what a grouping goes by. -/
def ByKey.glyphs : ByKey → List Glyph
  | .field name => literal name
  | .token t => bare t.text

@[simp] theorem write_value (q : Quoting) (v : Value) : write q v.glyphs = (v.text q).toList := by
  cases v <;> simp [Value.glyphs, Value.text]

@[simp] theorem write_id (q : Quoting) (id : ElementId) :
    write q id.glyphs = (id.text q).toList := by
  cases id <;> simp [ElementId.glyphs, ElementId.text]

@[simp] theorem write_comparer (q : Quoting) (p : Comparer) :
    write q p.glyphs = (p.text q).toList := by
  cases p with
  | raw text => simp [Comparer.glyphs, Comparer.text]
  | call name args =>
    have parts : (args.map Value.glyphs).map (write q) =
        (args.map (Value.text q)).map String.toList := by
      simp [Function.comp_def]
    simp [Comparer.glyphs, Comparer.text, write_listed, String.toList_intercalate,
      -List.map_map, parts]

@[simp] theorem write_compared (q : Quoting) (value : HasValue) :
    write q value.glyphs = (value.text q).toList := by
  cases value <;> simp [HasValue.glyphs, HasValue.text]

@[simp] theorem write_key (q : Quoting) (key : ByKey) :
    write q key.glyphs = (key.text q).toList := by
  cases key <;> simp [ByKey.glyphs, ByKey.text]

theorem write_items (q : Quoting) (items : List String) :
    write q (listed (items.map literal)) = (q.quoteAll items).toList := by
  have parts : (items.map literal).map (write q) = (items.map q.quote).map String.toList := by
    simp [Function.comp_def]
  rw [write_listed, parts, Quoting.quoteAll, String.toList_intercalate]
  rfl

/-! ## String arguments -/

/-- The string arguments of an identifier. -/
def ElementId.strings : ElementId → List String
  | .string id => [id]
  | .integer _ => []

/-- The string arguments of a predicate. One of the caller's own has none. -/
def Comparer.strings : Comparer → List String
  | .raw _ => []
  | .call _ args => args.filterMap Value.asString?

/-- The string arguments of what a property is compared with. -/
def HasValue.strings : HasValue → List String
  | .literal text => [text]
  | .predicate p => p.strings

/-- The string arguments of what a grouping goes by. -/
def ByKey.strings : ByKey → List String
  | .field name => [name]
  | .token _ => []

@[simp] theorem quotedChars_value (v : Value) :
    quotedChars v.glyphs = v.asString?.toList.flatMap String.toList := by
  cases v <;> simp [Value.glyphs, Value.asString?]

theorem quotedChars_id (id : ElementId) :
    quotedChars id.glyphs = id.strings.flatMap String.toList := by
  cases id <;> simp [ElementId.glyphs, ElementId.strings]

theorem quotedChars_comparer (p : Comparer) :
    quotedChars p.glyphs = p.strings.flatMap String.toList := by
  cases p with
  | raw text => simp [Comparer.glyphs, Comparer.strings]
  | call name args =>
    simp [Comparer.glyphs, Comparer.strings, quotedChars_listed, List.flatMap_map,
      List.filterMap_eq_flatMap_toList, List.flatMap_assoc]

@[simp] theorem quotedChars_compared (value : HasValue) :
    quotedChars value.glyphs = value.strings.flatMap String.toList := by
  cases value with
  | literal text => simp [HasValue.glyphs, HasValue.strings]
  | predicate p => exact quotedChars_comparer p

theorem quotedChars_key (key : ByKey) :
    quotedChars key.glyphs = key.strings.flatMap String.toList := by
  cases key <;> simp [ByKey.glyphs, ByKey.strings]

theorem quotedChars_items (items : List String) :
    quotedChars (listed (items.map literal)) = items.flatMap String.toList := by
  simp [quotedChars_listed, List.flatMap_map]

/-! ## Statements -/

/-- The configuration with another way of quoting. -/
def Config.requote (q : Quoting) (c : Config) : Config := { c with quoting := q }

@[simp] theorem Config.source_requote (q : Quoting) (c : Config) :
    (c.requote q).source = c.source := rfl

@[simp] theorem Config.quoting_requote (q : Quoting) (c : Config) :
    (c.requote q).quoting = q := rfl

namespace Statement

mutual

/-- The glyphs of a statement. -/
def glyphs : Statement → List Glyph
  | ⟨config, steps⟩ => bare config.source ++ stepGlyphs config steps

/-- The glyphs of the steps. -/
def stepGlyphs (c : Config) : List AppendedStep → List Glyph
  | [] => []
  | step :: rest =>
    bare (opening c step) ++ bare step.head.name ++ bare "(" ++ argumentGlyphs step ++ bare ")" ++
      stepGlyphs c rest

/-- The glyphs of the arguments of a step. A goal brings all its glyphs along. -/
def argumentGlyphs : AppendedStep → List Glyph
  | .start _ id => (id.map ElementId.glyphs).getD []
  | .add _ label | .move _ label => (label.map literal).getD []
  | .has name value => literal name ++ bare "," ++ value.glyphs
  | .hasLabel label => literal label
  | .hasId id => id.glyphs
  | .property name value => literal name ++ bare "," ++ value.glyphs
  | .project _ items => listed (items.map literal)
  | .mark name => literal name
  | .modulate key => key.glyphs
  | .limit count => bare (integerText count)
  | .group | .general _ => []
  | .endpoint _ goal => goal.glyphs

end

mutual

/-- The string arguments of a statement, in order. -/
def strings : Statement → List String
  | ⟨_, steps⟩ => stepStrings steps

/-- The string arguments of the steps. -/
def stepStrings : List AppendedStep → List String
  | [] => []
  | step :: rest => argumentStrings step ++ stepStrings rest

/-- The string arguments of a step. Those of a goal come once more with every step that
leads to it. -/
def argumentStrings : AppendedStep → List String
  | .start _ id => (id.map ElementId.strings).getD []
  | .add _ label | .move _ label => label.toList
  | .has name value => name :: value.strings
  | .hasLabel label => [label]
  | .hasId id => id.strings
  | .property name value => name :: value.asString?.toList
  | .project _ items => items
  | .mark name => [name]
  | .modulate key => key.strings
  | .limit _ | .group | .general _ => []
  | .endpoint _ goal => goal.strings

end

/-- The number of backslashes and single quotes in the string arguments. -/
def specials (s : Statement) : Nat := (s.strings.flatMap String.toList).countP Quoting.isSpecial

mutual

/-- The quoted glyphs are the characters of the string arguments. -/
theorem quotedChars_glyphs :
    ∀ s : Statement, quotedChars s.glyphs = s.strings.flatMap String.toList
  | ⟨config, steps⟩ => by
    rw [glyphs, strings, quotedChars_append, quotedChars_bare, List.nil_append,
      quotedChars_stepGlyphs config steps]

theorem quotedChars_stepGlyphs (c : Config) :
    ∀ steps : List AppendedStep,
      quotedChars (stepGlyphs c steps) = (stepStrings steps).flatMap String.toList
  | [] => rfl
  | step :: rest => by
    rw [stepGlyphs, stepStrings, List.flatMap_append, quotedChars_append,
      quotedChars_stepGlyphs c rest]
    simp [quotedChars_argumentGlyphs step]

theorem quotedChars_argumentGlyphs :
    ∀ step : AppendedStep,
      quotedChars (argumentGlyphs step) = (argumentStrings step).flatMap String.toList
  | .endpoint e goal => by rw [argumentGlyphs, argumentStrings, quotedChars_glyphs goal]
  | .start e id => by
    cases id with
    | none => rfl
    | some id => exact quotedChars_id id
  | .add e label | .move m label => by
    cases label with
    | none => rfl
    | some label => simp [argumentGlyphs, argumentStrings]
  | .has name value => by simp [argumentGlyphs, argumentStrings]
  | .property name value => by simp [argumentGlyphs, argumentStrings]
  | .hasLabel label | .mark label => by simp [argumentGlyphs, argumentStrings]
  | .hasId id => quotedChars_id id
  | .project p items => quotedChars_items items
  | .modulate key => quotedChars_key key
  | .limit count => quotedChars_bare _
  | .group | .general g => rfl

end

/-- Escaping a statement adds a backslash for each special character of its string
arguments. -/
theorem countP_isEscaped_glyphs (s : Statement) : s.glyphs.countP isEscaped = s.specials := by
  rw [countP_isEscaped, quotedChars_glyphs, specials]

theorem stepStrings_append (a b : List AppendedStep) :
    stepStrings (a ++ b) = stepStrings a ++ stepStrings b := by
  induction a with
  | nil => rfl
  | cons step rest ih => rw [List.cons_append, stepStrings, stepStrings, ih, List.append_assoc]

/-- The string arguments of a goal count again where it is embedded. -/
theorem specials_append_endpoint (s : Statement) (e : Endpoint) (goal : Statement) :
    (s.append (.endpoint e goal)).specials = s.specials + goal.specials := by
  obtain ⟨config, steps⟩ := s
  simp [specials, append, strings, stepStrings_append, stepStrings, argumentStrings]

mutual

/-- The statement quoted in one way throughout, down to the goals of goals. -/
def requote (q : Quoting) : Statement → Statement
  | ⟨config, steps⟩ => ⟨config.requote q, requoteSteps q steps⟩

/-- The steps quoted in one way throughout. -/
def requoteSteps (q : Quoting) : List AppendedStep → List AppendedStep
  | [] => []
  | step :: rest => requoteStep q step :: requoteSteps q rest

/-- A step quoted in one way throughout. -/
def requoteStep (q : Quoting) : AppendedStep → AppendedStep
  | .endpoint e goal => .endpoint e (goal.requote q)
  | step => step

end

theorem head_requoteStep (q : Quoting) (step : AppendedStep) :
    (requoteStep q step).head = step.head := by
  cases step <;> simp [requoteStep, Step.head]

theorem opening_requoteStep (q : Quoting) (c : Config) (step : AppendedStep) :
    opening (c.requote q) (requoteStep q step) = opening c step := by
  unfold opening
  rw [head_requoteStep]
  rfl

theorem optionalText_eq {α : Type} {q : Quoting} {toText : α → String}
    {toGlyphs : α → List Glyph} (spelled : ∀ a, write q (toGlyphs a) = (toText a).toList)
    (made : Option α) :
    (optionalText toText made).toList = write q ((made.map toGlyphs).getD []) := by
  cases made with
  | none => rfl
  | some a => exact (spelled a).symm

mutual

/-- The text of a statement that is quoted alike throughout spells its glyphs. -/
theorem toList_text_requote (q : Quoting) :
    ∀ s : Statement, (s.requote q).text.toList = write q s.glyphs
  | ⟨config, steps⟩ => by
    rw [requote, text, glyphs, write_append, write_bare, String.toList_append,
      toList_fragments_requote q config steps, Config.source_requote]

theorem toList_fragments_requote (q : Quoting) (c : Config) :
    ∀ steps : List AppendedStep,
      (fragments (c.requote q) (requoteSteps q steps)).toList =
        write q (stepGlyphs c steps)
  | [] => rfl
  | step :: rest => by
    rw [requoteSteps, fragments, stepGlyphs, String.toList_append,
      toList_fragments_requote q c rest, fragment_eq, opening_requoteStep, head_requoteStep,
      toList_argumentText_requote q c step]
    simp

theorem toList_argumentText_requote (q : Quoting) (c : Config) :
    ∀ step : AppendedStep,
      (argumentText (c.requote q) (requoteStep q step)).toList =
        write q (argumentGlyphs step)
  | .endpoint e goal => by
    rw [requoteStep, argumentText, argumentGlyphs, toList_text_requote q goal]
  | .start e id => optionalText_eq (write_id q) id
  | .add e label | .move m label => optionalText_eq (write_literal q) label
  | .has name value | .property name value => by simp [requoteStep, argumentText, argumentGlyphs]
  | .hasLabel label | .mark label => (write_literal q label).symm
  | .hasId id => (write_id q id).symm
  | .project p items => (write_items q items).symm
  | .modulate key => (write_key q key).symm
  | .limit count => (write_bare q _).symm
  | .group | .general g => rfl

end

mutual

/-- The glyphs do not depend on how a statement is quoted. -/
theorem glyphs_requote (q : Quoting) : ∀ s : Statement, (s.requote q).glyphs = s.glyphs
  | ⟨config, steps⟩ => by
    rw [requote, glyphs, glyphs, Config.source_requote, stepGlyphs_requote q config steps]

theorem stepGlyphs_requote (q : Quoting) (c : Config) :
    ∀ steps : List AppendedStep,
      stepGlyphs (c.requote q) (requoteSteps q steps) = stepGlyphs c steps
  | [] => rfl
  | step :: rest => by
    rw [requoteSteps, stepGlyphs, stepGlyphs, stepGlyphs_requote q c rest, opening_requoteStep,
      head_requoteStep, argumentGlyphs_requote q step]

theorem argumentGlyphs_requote (q : Quoting) :
    ∀ step : AppendedStep, argumentGlyphs (requoteStep q step) = argumentGlyphs step
  | .endpoint e goal => by
    rw [requoteStep, argumentGlyphs, argumentGlyphs, glyphs_requote q goal]
  | .start _ _ | .add _ _ | .move _ _ | .has _ _ | .hasLabel _ | .hasId _ | .property _ _
  | .project _ _ | .mark _ | .modulate _ | .limit _ | .group | .general _ => rfl

end

end Statement

end Gremlin
