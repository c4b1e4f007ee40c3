import Gremlin.Proofs.Json.Configuration
import Gremlin.Proofs.Json.Written

/-!
# The library's types are read back

Every value of the library's types is read back from its JSON form, except for what holds a
double: a double that is not finite is written as a null, which is not read as a double.

Results:
1. `readsBack_value`, `readsBack_comparer` and the like: each type, wherever its JSON form
   stands in a text.
2. `load_toJson`: a configuration is loaded from its JSON form if its source is valid.
3. `toJson_roundTrips`: which values are read back, and which are refused.
-/

namespace Gremlin

/-! ## Doubles -/

/-- The doubles in a value. -/
def Value.doubles : Value → List Double
  | .double d => [d]
  | _ => []

/-- The doubles among the arguments of a predicate. -/
def Comparer.doubles : Comparer → List Double
  | .raw _ => []
  | .call _ args => args.flatMap Value.doubles

/-- There are doubles, and none of them is finite. -/
def NoneFinite (ds : List Double) : Prop := ds ≠ [] ∧ ∀ d ∈ ds, d.isFinite = false

namespace Json

/-! ## Values -/

theorem begins_tagged (name value : String) : Begins (tagged name value) := by
  obtain ⟨tail, split⟩ : ∃ tail, (tagged name value).toList = '\x7b' :: tail := by
    simp [tagged, object]
  exact ⟨'\x7b', tail, split, by decide, by decide⟩

theorem begins_value (v : Value) : Begins v.toJson := by
  cases v <;> exact begins_tagged _ _

/-- A null is no double. -/
theorem fails_double_null : Fails readDouble "null" :=
  fun _ _ => ⟨_, rfl, rfl⟩

theorem readsBack_value {v : Value} (plain : v.doubles = []) : ReadsBack readValue v.toJson v := by
  cases v with
  | string text => exact (readsBack_string .string text).ofValue rfl
  | integer n => exact (readsBack_integer n).ofValue rfl
  | double d => cases plain
  | boolean b => exact (readsBack_boolean b).ofValue rfl

theorem fails_value {v : Value} (none : NoneFinite v.doubles) : Fails readValue v.toJson := by
  cases v with
  | double d =>
    have noText : d.json = "null" := by
      rw [Double.json, none.2 d List.mem_cons_self]
      rfl
    rw [Value.toJson, noText]
    exact fails_double_null.ofValue rfl
  | _ => exact absurd rfl none.1

/-! ## Identifiers, tokens and quoting -/

theorem readsBack_elementId (id : ElementId) : ReadsBack readElementId id.toJson id := by
  cases id with
  | string id => exact (readsBack_string .string id).ofValue rfl
  | integer id => exact (readsBack_integer id).ofValue rfl

theorem readsBack_token (t : Token) : ReadsBack readToken t.toJson t :=
  (readsBack_string .string t.text).map Token.mk

theorem readsBack_quoting (q : Quoting) : ReadsBack readQuoting q.toJson q :=
  fun rest _ => readQuoting_eq_ok_iff.2 (.inl (text_string q.name rest))

/-! ## Configurations -/

/-- The JSON form of a configuration gives each of its fields. -/
theorem configText_toJson (c : Config) :
    ConfigText c.toJson [.source c.source, .quoting c.quoting, .dotted c.dottedEdgeSource] := by
  have text : c.toJson.toList = '\x7b' :: ((string "source").toList ++ ':' ::
      ((string c.source).toList ++ ',' :: ((string "quoting").toList ++ ':' ::
      (c.quoting.toJson.toList ++ ',' :: ((string "dotted_edge_source").toList ++ ':' ::
      ((boolean c.dottedEdgeSource).toList ++ ['\x7d'])))))) := by
    simp [Config.toJson, object]
  refine ⟨[], .inl ?_, .refl _⟩
  rw [text]
  refine ⟨_, .refl _, ?_, (InOrder.dotted _ _ _).once⟩
  refine .first ⟨_, key_string "source" _, text_string c.source _⟩ ?_
  refine .next (.refl _) ⟨_, key_string "quoting" _, .inl (text_string c.quoting.name _)⟩ ?_
  refine .next (.refl _) ⟨_, key_string "dotted_edge_source" _, ?_⟩ (.close (.refl _))
  exact word_boolean c.dottedEdgeSource _

theorem configOf_fields (c : Config) :
    configOf [.source c.source, .quoting c.quoting, .dotted c.dottedEdgeSource] = c := rfl

theorem ofJson_config (c : Config) : Config.ofJson c.toJson = .ok c :=
  Config.ofJson_eq_ok_iff.2 ⟨_, configText_toJson c, (configOf_fields c).symm⟩

/-- A configuration is loaded from its JSON form if it is valid, and with its own error if
it is not. -/
theorem load_toJson (c : Config) : Config.load c.toJson = c.validate.map fun _ => c := by
  rw [Config.load_of_configText (configText_toJson c), configOf_fields, Config.validate]
  split <;> rfl

/-! ## Predicates -/

theorem readArguments_list (args : List Value) (rest : List Char) :
    readArguments ((list (args.map Value.toJson)).toList ++ rest) =
      readElements readValue readValue_shrinks true
        (listText Value.toJson true args ++ ']' :: rest) := by
  rw [toList_list, List.cons_append, List.append_assoc, readArguments, skipBlanks_cons (by decide)]
  rfl

theorem readsBack_arguments {args : List Value} (plain : args.flatMap Value.doubles = []) :
    ReadsBack readArguments (list (args.map Value.toJson)) args := by
  intro rest _
  rw [readArguments_list]
  exact ReadsBack.elements (fun v _ => begins_value v)
    (fun v member => readsBack_value (List.flatMap_eq_nil_iff.1 plain v member)) true rest

theorem fails_arguments {args : List Value} (none : NoneFinite (args.flatMap Value.doubles)) :
    Fails readArguments (list (args.map Value.toJson)) := by
  intro rest _
  -- Without finite doubles, an argument is read back or fails: there is no third case.
  have each (v : Value) (member : v ∈ args) : v.doubles = [] ∨ NoneFinite v.doubles := by
    rcases Classical.em (v.doubles = []) with plain | some
    · exact .inl plain
    · exact .inr ⟨some, fun d inside => none.2 d (List.mem_flatMap.2 ⟨v, member, inside⟩)⟩
  obtain ⟨v, member, some⟩ : ∃ v ∈ args, v.doubles ≠ [] := by
    simpa [List.flatMap_eq_nil_iff] using none.1
  rw [readArguments_list]
  exact Fails.elements (fun v _ => begins_value v)
    (fun v member => (each v member).imp readsBack_value fails_value)
    ⟨v, member, fails_value ((each v member).resolve_left some)⟩ true rest

section Call

variable {name text : String} {args : List Value}

theorem toList_call (rest : List Char) :
    (object [("name", string name), ("args", text)]).toList ++ rest =
      '\x7b' :: ((string "name").toList ++ ':' :: ((string name).toList ++ ',' ::
        ((string "args").toList ++ ':' :: (text.toList ++ '\x7d' :: rest)))) := by
  simp [object]

/-- The name of a call stands before its arguments. -/
theorem readMembers_name (cs : List Char) :
    readMembers callField callField_shrinks true {}
        ((string "name").toList ++ ':' :: ((string name).toList ++ ',' :: cs)) =
      readMembers callField callField_shrinks false { name := some name } (',' :: cs) := by
  obtain ⟨behind, key, colon⟩ := key_string "name" ((string name).toList ++ ',' :: cs)
  have field : callField "name" {} behind = .ok ({ name := some name }, ',' :: cs) := by
    rw [callField, if_pos rfl, readField_unseen colon,
      readText_eq_ok_iff.2 (text_string name (',' :: cs)), Except.map]
  exact readMembers_member (readKey_true key) field

theorem callField_args {cs inner : List Char} (colon : Symbol ':' cs inner) :
    callField "args" { name := some name } cs =
      (readArguments inner).map fun (args, rest) => (⟨some name, some args⟩, rest) := by
  rw [callField, if_neg (by decide), if_pos rfl]
  exact readField_unseen colon

theorem ReadsBack.call (back : ReadsBack readArguments text args) :
    ReadsBack readCall (object [("name", string name), ("args", text)]) (.call name args) := by
  intro rest _
  obtain ⟨behind, key, colon⟩ := key_string "args" (text.toList ++ '\x7d' :: rest)
  have field : callField "args" { name := some name } behind =
      .ok (⟨some name, some args⟩, '\x7d' :: rest) := by
    rw [callField_args colon, back _ (ended_cons (by decide) rest), Except.map]
  rw [toList_call, readCall, skipBlanks_cons (by decide)]
  simp [readMembers_name, readMembers_member (readKey_false (.refl _) key) field,
    readMembers_close (.refl _)]

theorem Fails.call (fails : Fails readArguments text) :
    Fails readCall (object [("name", string name), ("args", text)]) := by
  intro rest _
  obtain ⟨behind, key, colon⟩ := key_string "args" (text.toList ++ '\x7d' :: rest)
  obtain ⟨f, taken, mistyped⟩ := fails ('\x7d' :: rest) (ended_cons (by decide) rest)
  have field : callField "args" { name := some name } behind = .error f := by
    rw [callField_args colon, taken, Except.map]
  refine ⟨f, ?_, mistyped⟩
  rw [toList_call, readCall, skipBlanks_cons (by decide)]
  simp [readMembers_name, readMembers_failed (readKey_false (.refl _) key) field]

end Call

theorem readsBack_comparer {p : Comparer} (plain : p.doubles = []) :
    ReadsBack readComparer p.toJson p := by
  cases p with
  | raw text => exact (readsBack_string .string text).ofValue rfl
  | call name args => exact (readsBack_arguments plain).call.tagged rfl

example : (Comparer.call "gt" [.integer 30]).toJson =
    "\x7b\"Call\":\x7b\"name\":\"gt\",\"args\":[\x7b\"Integer\":30\x7d]\x7d\x7d" := by
  decide +kernel

theorem fails_comparer {p : Comparer} (none : NoneFinite p.doubles) :
    Fails readComparer p.toJson := by
  cases p with
  | raw text => exact absurd rfl none.1
  | call name args => exact (fails_arguments none).call.tagged rfl

/-! ## Whole texts -/

/-- The values of a domain are read back from what they are written as, and so no two of
them are written alike. -/
structure RoundTrips {α : Type} (write : α → String) (read : String → Except Fault α)
    (domain : α → Prop) : Prop where
  readBack : ∀ a, domain a → read (write a) = .ok a
  injective : ∀ a b, domain a → domain b → write a = write b → a = b

theorem RoundTrips.of_readBack {α : Type} {write : α → String} {read : String → Except Fault α}
    {domain : α → Prop} (readBack : ∀ a, domain a → read (write a) = .ok a) :
    RoundTrips write read domain where
  readBack := readBack
  injective a b inside inside' same := by
    have read := readBack a inside
    rw [same, readBack b inside'] at read
    exact (Except.ok.inj read).symm

/-- Whatever is written is read back, unless it holds a double. Where doubles are written of
which none is finite, the text is JSON for something else. -/
theorem toJson_roundTrips :
    RoundTrips ElementId.toJson ElementId.ofJson (fun _ => True) ∧
    RoundTrips Token.toJson Token.ofJson (fun _ => True) ∧
    RoundTrips Quoting.toJson Quoting.ofJson (fun _ => True) ∧
    RoundTrips Config.toJson Config.ofJson (fun _ => True) ∧
    RoundTrips Value.toJson Value.ofJson (fun v => v.doubles = []) ∧
    RoundTrips Comparer.toJson Comparer.ofJson (fun p => p.doubles = []) ∧
    (∀ c : Config, Config.load c.toJson = c.validate.map fun _ => c) ∧
    (∀ v : Value, NoneFinite v.doubles →
      ∃ f, Value.ofJson v.toJson = .error f ∧ f.cause.category = .mistyped) ∧
    ∀ p : Comparer, NoneFinite p.doubles →
      ∃ f, Comparer.ofJson p.toJson = .error f ∧ f.cause.category = .mistyped :=
  ⟨.of_readBack fun id _ => (readsBack_elementId id).readAll,
    .of_readBack fun t _ => (readsBack_token t).readAll,
    .of_readBack fun q _ => (readsBack_quoting q).readAll,
    .of_readBack fun c _ => ofJson_config c,
    .of_readBack fun _ plain => (readsBack_value plain).readAll,
    .of_readBack fun _ plain => (readsBack_comparer plain).readAll,
    load_toJson,
    fun _ none => (fails_value none).readAll,
    fun _ none => (fails_comparer none).readAll⟩

/-- A call with the smallest integer and a quote, and one with a double that is no number. -/
theorem toJson_roundTrips_calls :
    (∃ p : Comparer, p = .call "within" [.integer (-0x8000000000000000), .string "\""] ∧
      Comparer.ofJson p.toJson = .ok p) ∧
    ∃ p : Comparer, p = .call "gt" [.integer 1, .double .nan] ∧
      ∃ f, Comparer.ofJson p.toJson = .error f ∧ f.cause.category = .mistyped := by
  obtain ⟨-, -, -, -, -, trips, -, -, fails⟩ := toJson_roundTrips
  have noneFinite : NoneFinite (Comparer.call "gt" [.integer 1, .double .nan]).doubles :=
    ⟨by decide, by decide⟩
  exact ⟨⟨_, rfl, trips.readBack _ rfl⟩, _, rfl, fails _ noneFinite⟩

end Json

end Gremlin
