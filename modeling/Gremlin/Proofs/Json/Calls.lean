import Gremlin.Proofs.Json.Configuration
import Gremlin.Proofs.Json.Numbers
import Gremlin.Proofs.Json.RoundTrip

/-!
# Predicates in JSON

A predicate is an object whose only key says whether it is a raw text or a call. A call is an
object of its name and its arguments, in any order and among members that are not known, or a
list of the two. Each argument is an object whose only key is its type. The keys of these
objects are strings without lone surrogates, also those of members that are not known; what
such a member holds may be anything.

Results:
1. `readValue_eq_ok_iff`, `readArguments_eq_ok_iff`: arguments.
2. `foldlM_putCallEntry_empty_iff`: the members that make up a call.
3. `readCall_eq_ok_iff`: calls, in either form.
4. `Comparer.ofJson_iff_written`: which texts are predicates, and of what.
-/

namespace Gremlin

/-! ## Grammar -/

/-- The key of the JSON form. -/
def Value.tag : Value → String
  | string _ => "String"
  | integer _ => "Integer"
  | double _ => "Double"
  | boolean _ => "Boolean"

/-- The key of the JSON form. -/
def Comparer.tag : Comparer → String
  | raw _ => "Raw"
  | call _ _ => "Call"

namespace Json

/-- What belongs to the type of a value. -/
def ValuePayload : Value → List Char → List Char → Prop
  | .string text, cs, rest => Text cs text rest
  | .integer n, cs, rest => IntegerText cs n rest
  | .double d, cs, rest => DoubleText cs d rest
  | .boolean b, cs, rest => Word (booleanWord b) cs rest

/-- A value. -/
def ValueText (cs : List Char) (v : Value) (rest : List Char) : Prop :=
  TaggedText v.tag (ValuePayload v) cs rest

/-- A list of values. -/
def ArgumentsText (cs : List Char) (args : List Value) (rest : List Char) : Prop :=
  ∃ inner, Symbol '[' cs inner ∧ Separated ']' ValueText true inner args rest

/-- A field of a call with its value, or the key of a member that is not known. -/
inductive CallEntry
  | name (text : String)
  | args (values : List Value)
  | unknown (key : String)

/-- The fields of a call, in order. -/
def callFieldNames : List String := ["name", "args"]

namespace CallEntry

/-- The key of the member. -/
def key : CallEntry → String
  | name _ => "name"
  | args _ => "args"
  | unknown key => key

/-- The value of the member. One that is not known may have any value. -/
def ValueText : CallEntry → List Char → List Char → Prop
  | name text, cs, rest => Text cs text rest
  | args values, cs, rest => ArgumentsText cs values rest
  | unknown key, cs, rest => key ∉ callFieldNames ∧ Skipped .value cs rest

/-- The name that is given. -/
def name? : CallEntry → Option String
  | name text => some text
  | _ => none

/-- The arguments that are given. -/
def args? : CallEntry → Option (List Value)
  | args values => some values
  | _ => none

/-- Whether the entry is a field of a call. -/
def isField : CallEntry → Bool
  | unknown _ => false
  | _ => true

end CallEntry

/-- Both fields are there, once each and in any order. -/
def Specify (entries : List CallEntry) (name : String) (args : List Value) : Prop :=
  (entries.filter CallEntry.isField).Perm [.name name, .args args]

/-- An object of fields and members that are not known. -/
def CallObject (cs : List Char) (entries : List CallEntry) (rest : List Char) : Prop :=
  ∃ inner, Symbol '\x7b' cs inner ∧
    Separated '\x7d' (Member CallEntry.key CallEntry.ValueText) true inner entries rest

/-- A list of a name and arguments. -/
def CallPair (cs : List Char) (name : String) (args : List Value) (rest : List Char) : Prop :=
  ∃ inner behind next after, Symbol '[' cs inner ∧ Text inner name behind ∧
    Symbol ',' behind next ∧ ArgumentsText next args after ∧ Symbol ']' after rest

/-- What is written about a call. -/
def CallBody (entries : List CallEntry) (cs rest : List Char) : Prop :=
  CallObject cs entries rest ∨
    ∃ name args, entries = [.name name, .args args] ∧ CallPair cs name args rest

/-- A call with its name and its arguments. -/
def CallText (name : String) (args : List Value) (cs rest : List Char) : Prop :=
  ∃ entries, CallBody entries cs rest ∧ Specify entries name args

/-- What belongs to a raw text or a call. -/
def ComparerPayload : Comparer → List Char → List Char → Prop
  | .raw text, cs, rest => Text cs text rest
  | .call name args, cs, rest => CallText name args cs rest

/-- A text that is a raw predicate, with blanks around it. -/
def RawWritten (text raw : String) : Prop :=
  ∃ rest, TaggedText "Raw" (fun cs rest => Text cs raw rest) text.toList rest ∧ Blanks rest []

/-- A text that is written as a call, with blanks around it. It is one if the entries specify it. -/
def CallWritten (text : String) (entries : List CallEntry) : Prop :=
  ∃ rest, TaggedText "Call" (CallBody entries) text.toList rest ∧ Blanks rest []

/-! ## Arguments -/

theorem read_ofValue_iff {α β : Type} {name : String} {read : Reader α} {make : α → β} {b : β}
    {cs rest : List Char} :
    (Variant.ofValue name read make).read cs = .ok (b, rest) ↔
      ∃ a, read cs = .ok (a, rest) ∧ make a = b := by
  constructor
  · intro taken
    obtain ⟨⟨a, behind⟩, read, same⟩ := map_eq_ok.1 taken
    cases same
    exact ⟨a, read, rfl⟩
  · rintro ⟨a, read, rfl⟩
    exact map_eq_ok.2 ⟨(a, rest), read, rfl⟩

theorem tags_value : Tags valueVariants Value.tag ValuePayload where
  bare := by
    intro v a member bare
    simp only [valueVariants, List.mem_cons, List.not_mem_nil, or_false] at member
    rcases member with rfl | rfl | rfl | rfl <;> cases bare
  sound := by
    intro v a cs rest member taken ended
    simp only [valueVariants, List.mem_cons, List.not_mem_nil, or_false] at member
    rcases member with rfl | rfl | rfl | rfl
    · obtain ⟨text, read, rfl⟩ := read_ofValue_iff.1 taken
      exact ⟨rfl, readText_eq_ok_iff.1 read⟩
    · obtain ⟨n, read, rfl⟩ := read_ofValue_iff.1 taken
      exact ⟨rfl, (readInteger_eq_ok_iff ended).1 read⟩
    · obtain ⟨d, read, rfl⟩ := read_ofValue_iff.1 taken
      exact ⟨rfl, (readDouble_eq_ok_iff ended).1 read⟩
    · obtain ⟨b, read, rfl⟩ := read_ofValue_iff.1 taken
      exact ⟨rfl, readBoolean_eq_ok_iff.1 read⟩
  complete := by
    intro a cs rest payload ended
    cases a with
    | string text =>
      exact ⟨_, rfl, read_ofValue_iff.2 ⟨text, readText_eq_ok_iff.2 payload, rfl⟩⟩
    | integer n =>
      exact ⟨_, rfl, read_ofValue_iff.2 ⟨n, (readInteger_eq_ok_iff ended).2 payload, rfl⟩⟩
    | double d =>
      exact ⟨_, rfl, read_ofValue_iff.2 ⟨d, (readDouble_eq_ok_iff ended).2 payload, rfl⟩⟩
    | boolean b =>
      exact ⟨_, rfl, read_ofValue_iff.2 ⟨b, readBoolean_eq_ok_iff.2 payload, rfl⟩⟩

theorem readValue_eq_ok_iff {cs rest : List Char} {v : Value} :
    readValue cs = .ok (v, rest) ↔ ValueText cs v rest :=
  tags_value.readTagged_iff

theorem items_value : Items readValue ValueText where
  reads := readValue_eq_ok_iff
  blanks := TaggedText.skipBlanks_iff
  starts := TaggedText.starts

theorem readArguments_eq_ok_iff {cs rest : List Char} {args : List Value} :
    readArguments cs = .ok (args, rest) ↔ ArgumentsText cs args rest := by
  constructor
  · intro taken
    unfold readArguments at taken
    split at taken
    · next inner start =>
      exact ⟨inner, symbol_of_skipBlanks start, (readElements_eq_ok_iff items_value).1 taken⟩
    · cases taken
  · rintro ⟨inner, opens, separated⟩
    rw [readArguments, (symbol_iff (by decide)).1 opens]
    exact (readElements_eq_ok_iff items_value).2 separated

theorem items_arguments : Items readArguments ArgumentsText where
  reads := readArguments_eq_ok_iff
  blanks := exists_congr fun _ => and_congr_left fun _ => symbol_skipBlanks_iff (by decide)
  starts := by
    rintro cs args rest ⟨_, opens, _⟩
    exact starts_of_symbol opens (by decide) (by decide)

/-! ## Objects -/

/-- Puts an entry into the fields that have been seen. -/
def putCallEntry (fields : CallFields) : CallEntry → Option CallFields
  | .name text => putOnce fields.name { fields with name := some text }
  | .args args => putOnce fields.args { fields with args := some args }
  | .unknown _ => some fields

/-- The fields of an object are read as the grammar says. -/
theorem fields_call : Fields callField CallEntry.key CallEntry.ValueText putCallEntry where
  sound := by
    intro name state next cs rest taken
    unfold callField at taken
    split at taken
    · next same =>
      obtain ⟨unseen, inner, text, colon, read, rfl⟩ := readField_eq_ok_iff.1 taken
      exact ⟨.name text, inner, same.symm, colon, readText_eq_ok_iff.1 read,
        by simp [putCallEntry, putOnce, unseen]⟩
    · next noName =>
      split at taken
      · next same =>
        obtain ⟨unseen, inner, args, colon, read, rfl⟩ := readField_eq_ok_iff.1 taken
        exact ⟨.args args, inner, same.symm, colon, readArguments_eq_ok_iff.1 read,
          by simp [putCallEntry, putOnce, unseen]⟩
      · next noArgs =>
        obtain ⟨inner, colon, skipped, rfl⟩ := skipField_eq_ok_iff.1 taken
        refine ⟨.unknown name, inner, rfl, colon, ⟨?_, skipped_of_skipValue skipped⟩, rfl⟩
        simp [callFieldNames, noName, noArgs]
  complete := by
    intro e state next cs inner rest colon value put ended
    cases e with
    | name text =>
      obtain ⟨unseen, rfl⟩ := putOnce_eq_some_iff.1 put
      rw [CallEntry.key, callField, if_pos rfl, readField_eq_ok_iff]
      exact ⟨unseen, inner, text, colon, readText_eq_ok_iff.2 value, rfl⟩
    | args args =>
      obtain ⟨unseen, rfl⟩ := putOnce_eq_some_iff.1 put
      rw [CallEntry.key, callField, if_neg (by decide), if_pos rfl, readField_eq_ok_iff]
      exact ⟨unseen, inner, args, colon, readArguments_eq_ok_iff.2 value, rfl⟩
    | unknown key =>
      obtain ⟨noField, skipped⟩ := value
      cases put
      simp only [callFieldNames, List.mem_cons, List.not_mem_nil, or_false, not_or] at noField
      rw [CallEntry.key, callField, if_neg noField.1, if_neg noField.2, skipField_eq_ok_iff]
      exact ⟨inner, colon, skipValue_of_skipped skipped ended, rfl⟩

/-- All entries can be put into the fields if together with what has been seen there is at
most one of each. -/
theorem foldlM_putCallEntry_iff {entries : List CallEntry} {fields last : CallFields} :
    entries.foldlM putCallEntry fields = some last ↔
      fields.name.toList ++ entries.filterMap CallEntry.name? = last.name.toList ∧
      fields.args.toList ++ entries.filterMap CallEntry.args? = last.args.toList := by
  induction entries generalizing fields with
  | nil =>
    obtain ⟨name, args⟩ := fields
    obtain ⟨name', args'⟩ := last
    simp [eq_toList_iff, eq_comm]
  | cons e rest ih =>
    rw [List.foldlM_cons]
    simp only [List.filterMap_cons]
    cases e with
    | name text =>
      -- A field that has been seen cannot be put, and with it there would be two.
      cases seen : fields.name with
      | none => simp [putCallEntry, putOnce, seen, ih, CallEntry.name?, CallEntry.args?]
      | some other => cases last.name <;> simp [putCallEntry, putOnce, seen, CallEntry.name?]
    | args args =>
      cases seen : fields.args with
      | none => simp [putCallEntry, putOnce, seen, ih, CallEntry.name?, CallEntry.args?]
      | some other => cases last.args <;> simp [putCallEntry, putOnce, seen, CallEntry.args?]
    | unknown key => simp [putCallEntry, ih, CallEntry.name?, CallEntry.args?]

/-- The fields among some entries are the names and the arguments that are given. -/
theorem filter_isField_perm (entries : List CallEntry) :
    (entries.filter CallEntry.isField).Perm
      ((entries.filterMap CallEntry.name?).map .name ++
        (entries.filterMap CallEntry.args?).map .args) := by
  induction entries with
  | nil => exact .nil
  | cons e rest ih =>
    cases e with
    | name text => exact ih.cons _
    | args args => exact (ih.cons _).trans List.perm_middle.symm
    | unknown key => exact ih

theorem specify_iff {entries : List CallEntry} {name : String} {args : List Value} :
    Specify entries name args ↔
      entries.filterMap CallEntry.name? = [name] ∧ entries.filterMap CallEntry.args? = [args] := by
  have perm := filter_isField_perm entries
  constructor
  · intro specify
    have given := perm.symm.trans specify
    have names : (List.filterMap CallEntry.name? _).Perm [name] := given.filterMap _
    have arguments : (List.filterMap CallEntry.args? _).Perm [args] := given.filterMap _
    exact ⟨by simpa [Function.comp_def, CallEntry.name?] using names,
      by simpa [Function.comp_def, CallEntry.args?] using arguments⟩
  · rintro ⟨names, arguments⟩
    rw [names, arguments] at perm
    exact perm

theorem foldlM_putCallEntry_empty_iff {entries : List CallEntry} {name : String}
    {args : List Value} :
    entries.foldlM putCallEntry {} = some ⟨some name, some args⟩ ↔ Specify entries name args := by
  rw [foldlM_putCallEntry_iff, specify_iff]
  rfl

/-! ## Calls -/

theorem readCallPair_eq_ok_iff {cs rest : List Char} {p : Comparer} :
    readCallPair cs = .ok (p, rest) ↔
      ∃ name args behind next after, p = .call name args ∧ Text cs name behind ∧
        Symbol ',' behind next ∧ ArgumentsText next args after ∧ Symbol ']' after rest := by
  simp only [readCallPair, readNext_eq_ok_iff (items_text .string),
    readNext_eq_ok_iff items_arguments]
  constructor
  · rintro (⟨_, _, same⟩ | ⟨name, _, text, ⟨_, _, same⟩ | ⟨args, _, arguments, taken⟩⟩)
    · cases same
    · cases same
    · obtain ⟨_, closes, same⟩ := map_eq_ok.1 taken
      cases same
      cases text with
      | first text =>
        cases arguments with
        | next comma arguments =>
          exact ⟨name, args, _, _, _, rfl, text, comma, arguments, closeList_eq_ok_iff.1 closes⟩
  · rintro ⟨name, args, behind, next, after, rfl, text, comma, arguments, closes⟩
    refine .inr ⟨name, _, .first text, .inr ⟨args, _, .next comma arguments, ?_⟩⟩
    exact map_eq_ok.2 ⟨rest, closeList_eq_ok_iff.2 closes, rfl⟩

theorem specify_pair (name : String) (args : List Value) :
    Specify [.name name, .args args] name args :=
  .refl _

theorem Specify.unique {entries : List CallEntry} {name name' : String} {args args' : List Value}
    (left : Specify entries name args) (right : Specify entries name' args') :
    name = name' ∧ args = args' := by
  obtain ⟨names, arguments⟩ := specify_iff.1 left
  obtain ⟨names', arguments'⟩ := specify_iff.1 right
  simp_all

theorem readCall_eq_ok_iff {cs rest : List Char} {p : Comparer} :
    readCall cs = .ok (p, rest) ↔
      ∃ name args, p = .call name args ∧ CallText name args cs rest := by
  constructor
  · intro taken
    unfold readCall at taken
    split at taken
    · next inner start =>
      obtain ⟨name, args, behind, next, after, rfl, pair⟩ := readCallPair_eq_ok_iff.1 taken
      refine ⟨name, args, rfl, _, .inr ⟨name, args, rfl, ?_⟩, specify_pair name args⟩
      exact ⟨inner, behind, next, after, symbol_of_skipBlanks start, pair⟩
    · next inner start =>
      split at taken
      · cases taken
      · cases taken
      · cases taken
      · next name args behind read =>
        cases taken
        obtain ⟨entries, members, folded⟩ := exists_of_readMembers fields_call read
        refine ⟨name, args, rfl, entries, .inl ?_, foldlM_putCallEntry_empty_iff.1 folded⟩
        exact ⟨inner, symbol_of_skipBlanks start, members⟩
    · cases taken
  · rintro ⟨name, args, rfl, entries, body, specify⟩
    rcases body with ⟨inner, opens, members⟩ | ⟨name', args', rfl, pair⟩
    · have read : readMembers callField callField_shrinks true {} inner =
          .ok (⟨some name, some args⟩, rest) :=
        readMembers_of_separated fields_call members (foldlM_putCallEntry_empty_iff.2 specify)
      rw [readCall, (symbol_iff (by decide)).1 opens]
      simp only [read]
    · obtain ⟨rfl, rfl⟩ := (specify_pair name' args').unique specify
      obtain ⟨inner, behind, next, after, opens, pair⟩ := pair
      rw [readCall, (symbol_iff (by decide)).1 opens]
      exact readCallPair_eq_ok_iff.2 ⟨_, _, behind, next, after, rfl, pair⟩

/-! ## Predicates -/

/-- The variants of a predicate. -/
def comparerVariants : List (Variant Comparer) :=
  [.ofValue "Raw" (readText .string) .raw,
    { name := "Call", bare := .error (.wrongType .bareVariant .variantOfFields), read := readCall }]

theorem tags_comparer : Tags comparerVariants Comparer.tag ComparerPayload where
  bare := by
    intro v a member bare
    simp only [comparerVariants, List.mem_cons, List.not_mem_nil, or_false] at member
    rcases member with rfl | rfl <;> cases bare
  sound := by
    intro v a cs rest member taken _
    simp only [comparerVariants, List.mem_cons, List.not_mem_nil, or_false] at member
    rcases member with rfl | rfl
    · obtain ⟨text, read, rfl⟩ := read_ofValue_iff.1 taken
      exact ⟨rfl, readText_eq_ok_iff.1 read⟩
    · obtain ⟨name, args, rfl, call⟩ := readCall_eq_ok_iff.1 taken
      exact ⟨rfl, call⟩
  complete := by
    intro a cs rest payload _
    cases a with
    | raw text => exact ⟨_, rfl, read_ofValue_iff.2 ⟨text, readText_eq_ok_iff.2 payload, rfl⟩⟩
    | call name args => exact ⟨_, rfl, readCall_eq_ok_iff.2 ⟨name, args, rfl, payload⟩⟩

theorem readComparer_eq_ok_iff {cs rest : List Char} {p : Comparer} :
    readComparer cs = .ok (p, rest) ↔ TaggedText p.tag (ComparerPayload p) cs rest :=
  tags_comparer.readTagged_iff

end Json

namespace Comparer

open Json (RawWritten CallWritten Specify tagged object list string)

theorem ofJson_eq_ok_iff {text : String} {p : Comparer} :
    ofJson text = .ok p ↔ ∃ rest,
      Json.TaggedText p.tag (Json.ComparerPayload p) text.toList rest ∧ Json.Blanks rest [] := by
  rw [ofJson, Json.readAll_eq_ok_iff]
  exact exists_congr fun _ => and_congr_left fun _ => Json.readComparer_eq_ok_iff

theorem ofJson_raw_iff {text raw : String} :
    ofJson text = .ok (.raw raw) ↔ RawWritten text raw :=
  ofJson_eq_ok_iff

theorem ofJson_call_iff {text name : String} {args : List Value} :
    ofJson text = .ok (.call name args) ↔
      ∃ entries, CallWritten text entries ∧ Specify entries name args := by
  rw [ofJson_eq_ok_iff]
  constructor
  · rintro ⟨rest, ⟨inner, value, behind, opens, key, ⟨entries, body, specify⟩, closes⟩, blanks⟩
    exact ⟨entries, ⟨rest, ⟨inner, value, behind, opens, key, body, closes⟩, blanks⟩, specify⟩
  · rintro ⟨entries, ⟨rest, ⟨inner, value, behind, opens, key, body, closes⟩, blanks⟩, specify⟩
    exact ⟨rest, ⟨inner, value, behind, opens, key, ⟨entries, body, specify⟩, closes⟩, blanks⟩

/-- Which texts are predicates, and of what. A call has the name and the arguments that are
given, each of them once; how it is written, in which order and among which other members,
makes no difference. -/
theorem ofJson_iff_written (text : String) :
    (∀ p, ofJson text = .ok p ↔
      (∃ raw, RawWritten text raw ∧ p = .raw raw) ∨
      ∃ entries name args, CallWritten text entries ∧ Specify entries name args ∧
        p = .call name args) ∧
    ∀ other entries others name args, CallWritten text entries → CallWritten other others →
      Specify entries name args →
      (entries.filter Json.CallEntry.isField).Perm (others.filter Json.CallEntry.isField) →
      ofJson text = .ok (.call name args) ∧ ofJson other = .ok (.call name args) := by
  refine ⟨fun p => ?_, ?_⟩
  · cases p with
    | raw raw => simp [ofJson_raw_iff]
    | call name args => simp [ofJson_call_iff]
  · intro other entries others name args written written' specify same
    exact ⟨ofJson_call_iff.2 ⟨entries, written, specify⟩,
      ofJson_call_iff.2 ⟨others, written', same.symm.trans specify⟩⟩

section Forms

variable {name arguments : String} {args : List Value}
  (written : ∀ rest, Json.Ended rest → Json.ArgumentsText (arguments.toList ++ rest) args rest)

include written

theorem callWritten_pair :
    CallWritten (tagged "Call" (list [string name, arguments])) [.name name, .args args] := by
  have text : (tagged "Call" (list [string name, arguments])).toList =
      '\x7b' :: ((string "Call").toList ++ ':' :: '[' :: ((string name).toList ++ ',' ::
        (arguments.toList ++ ']' :: ['\x7d']))) := by
    simp [tagged, object, list]
  refine ⟨[], ?_, .refl _⟩
  rw [text]
  refine ⟨_, _, _, .refl _, Json.key_string "Call" _, .inr ⟨name, args, rfl, ?_⟩, .refl _⟩
  exact ⟨_, _, _, _, .refl _, Json.text_string name _, .refl _,
    written _ (Json.ended_cons (by decide) _), .refl _⟩

theorem callWritten_object :
    CallWritten (tagged "Call" (object [("args", arguments), ("x", "null"),
      ("name", string name)])) [.args args, .unknown "x", .name name] := by
  have text : (tagged "Call" (object [("args", arguments), ("x", "null"),
      ("name", string name)])).toList =
      '\x7b' :: ((string "Call").toList ++ ':' :: '\x7b' :: ((string "args").toList ++ ':' ::
        (arguments.toList ++ ',' :: ((string "x").toList ++ ':' :: (['n', 'u', 'l', 'l'] ++ ',' ::
          ((string "name").toList ++ ':' :: ((string name).toList ++ '\x7d' :: ['\x7d']))))))) := by
    simp [tagged, object]
  refine ⟨[], ?_, .refl _⟩
  rw [text]
  refine ⟨_, _, _, .refl _, Json.key_string "Call" _, .inl ⟨_, .refl _, ?_⟩, .refl _⟩
  refine .first ⟨_, Json.key_string "args" _, written _ (Json.ended_cons (by decide) _)⟩ ?_
  refine .next (.refl _) ⟨_, Json.key_string "x" _, by decide, .null (.refl _)⟩ ?_
  exact .next (.refl _) ⟨_, Json.key_string "name" _, Json.text_string name _⟩ (.close (.refl _))

end Forms

/-- A list, and an object in another order with a member that is not known. -/
theorem ofJson_iff_written_forms :
    ofJson (tagged "Call" (list [string "gt", list [(Value.integer 30).toJson]])) =
        .ok (.call "gt" [.integer 30]) ∧
      ofJson (tagged "Call" (object [("args", list [(Value.integer 30).toJson]), ("x", "null"),
        ("name", string "gt")])) = .ok (.call "gt" [.integer 30]) := by
  have arguments (rest : List Char) (ended : Json.Ended rest) :
      Json.ArgumentsText ((list ([Value.integer 30].map Value.toJson)).toList ++ rest)
        [.integer 30] rest :=
    Json.readArguments_eq_ok_iff.1 (Json.readsBack_arguments rfl rest ended)
  exact (ofJson_iff_written _).2 _ _ _ "gt" [.integer 30] (callWritten_pair arguments)
    (callWritten_object arguments) (.refl _) (List.Perm.swap _ _ _)

end Comparer

end Gremlin
