import Gremlin.Json.Decode
import Gremlin.Json.Encode
import Gremlin.Proofs.Json.Compounds
import Gremlin.Proofs.SourceName

/-!
# Configurations in JSON

A configuration is written as an object of its fields, in any order and among members that
are not known, or as a list of its fields in order. No field may occur twice, a member that
is not known may be anything, and a field that is left out has its default.

Results:
1. `readQuoting_eq_ok_iff`: the two spellings of a way of quoting.
2. `foldlM_put_eq_some_iff`: the fields of an object, if none occurs twice.
3. `ofJson_eq_ok_iff`: which texts are configurations, and of what.
4. `load_iff_configText`: which of them are accepted, and what is said of the others.
-/

namespace Gremlin.Json

/-! ## Entries -/

/-- A way of quoting: its name, or an object with the name as its only key and a null. -/
def QuotingText (cs : List Char) (q : Quoting) (rest : List Char) : Prop :=
  Text cs q.name rest ∨ ∃ inner value behind, Symbol '\x7b' cs inner ∧ Key inner q.name value ∧
    Word ['n', 'u', 'l', 'l'] value behind ∧ Symbol '\x7d' behind rest

/-- A field of a configuration with its value, or the key of a member that is not known. -/
inductive Entry
  | source (text : String)
  | quoting (q : Quoting)
  | dotted (b : Bool)
  | unknown (key : String)

/-- The fields of a configuration, in order. -/
def fieldNames : List String := ["source", "quoting", "dotted_edge_source"]

namespace Entry

/-- The key of the member. -/
def key : Entry → String
  | source _ => "source"
  | quoting _ => "quoting"
  | dotted _ => "dotted_edge_source"
  | unknown key => key

/-- The value of the member. One that is not known may have any value. -/
def ValueText : Entry → List Char → List Char → Prop
  | source text, cs, rest => Text cs text rest
  | quoting q, cs, rest => QuotingText cs q rest
  | dotted b, cs, rest => Word (booleanWord b) cs rest
  | unknown key, cs, rest => key ∉ fieldNames ∧ Skipped .value cs rest

/-- The source that is given. -/
def source? : Entry → Option String
  | source text => some text
  | _ => none

/-- The way of quoting that is given. -/
def quoting? : Entry → Option Quoting
  | quoting q => some q
  | _ => none

/-- What is given about the dot before a starting edge step. -/
def dotted? : Entry → Option Bool
  | dotted b => some b
  | _ => none

/-- Whether the entry is a field of a configuration. -/
def isField : Entry → Bool
  | unknown _ => false
  | _ => true

end Entry

/-- No field occurs twice. -/
def Once (entries : List Entry) : Prop :=
  (entries.filterMap Entry.source?).length ≤ 1 ∧ (entries.filterMap Entry.quoting?).length ≤ 1 ∧
    (entries.filterMap Entry.dotted?).length ≤ 1

/-- The configuration of the fields that are given, with defaults for the others. -/
def configOf (entries : List Entry) : Config where
  source := (entries.filterMap Entry.source?).head?.getD "g"
  quoting := (entries.filterMap Entry.quoting?).head?.getD .verbatim
  dottedEdgeSource := (entries.filterMap Entry.dotted?).head?.getD false

/-- An object of fields and members that are not known. -/
def ObjectText (cs : List Char) (entries : List Entry) (rest : List Char) : Prop :=
  ∃ inner, Symbol '\x7b' cs inner ∧
    Separated '\x7d' (Member Entry.key Entry.ValueText) true inner entries rest ∧ Once entries

/-- The fields from the first one on, without gaps. -/
inductive InOrder : List Entry → Prop
  | none : InOrder []
  | source (text : String) : InOrder [.source text]
  | quoting (text : String) (q : Quoting) : InOrder [.source text, .quoting q]
  | dotted (text : String) (q : Quoting) (b : Bool) :
      InOrder [.source text, .quoting q, .dotted b]

/-- A list of the values of fields in order. -/
def ListText (cs : List Char) (entries : List Entry) (rest : List Char) : Prop :=
  ∃ inner, Symbol '[' cs inner ∧
    Separated ']' (fun cs e => Entry.ValueText e cs) true inner entries rest ∧
    InOrder entries

/-- A text that is a configuration, with blanks around it. -/
def ConfigText (text : String) (entries : List Entry) : Prop :=
  ∃ rest, (ObjectText text.toList entries rest ∨ ListText text.toList entries rest) ∧
    Blanks rest []

/-! ## Quoting -/

theorem find?_quotingVariants {name : String} {v : Variant Quoting} :
    quotingVariants.find? (·.name == name) = some v ↔
      ∃ q : Quoting, name = q.name ∧ v = .ofNothing q.name q := by
  constructor
  · intro found
    have named := List.find?_some found
    have member := List.mem_of_find?_eq_some found
    simp only [quotingVariants, List.mem_cons, List.not_mem_nil, or_false] at member
    rcases member with rfl | rfl
    · exact ⟨.verbatim, (beq_iff_eq.1 named).symm, rfl⟩
    · exact ⟨.escaped, (beq_iff_eq.1 named).symm, rfl⟩
  · rintro ⟨q, rfl, rfl⟩
    cases q <;> rfl

theorem readQuoting_eq_ok_iff {cs rest : List Char} {q : Quoting} :
    readQuoting cs = .ok (q, rest) ↔ QuotingText cs q rest := by
  rw [readQuoting, readTagged_eq_ok_iff]
  constructor
  · rintro ⟨name, v, found, written⟩
    obtain ⟨q', rfl, rfl⟩ := find?_quotingVariants.1 found
    rcases written with ⟨text, bare⟩ | ⟨inner, value, behind, opens, key, read, closes⟩
    · cases bare
      exact .inl text
    · obtain ⟨⟨⟨⟩, behind'⟩, null, same⟩ := map_eq_ok.1 read
      cases same
      exact .inr ⟨inner, value, _, opens, key, readNull_eq_ok_iff.1 null, closes⟩
  · intro written
    refine ⟨q.name, .ofNothing q.name q, find?_quotingVariants.2 ⟨q, rfl, rfl⟩, ?_⟩
    rcases written with text | ⟨inner, value, behind, opens, key, null, closes⟩
    · exact .inl ⟨text, rfl⟩
    · refine .inr ⟨inner, value, behind, opens, key, ?_, closes⟩
      exact map_eq_ok.2 ⟨_, readNull_eq_ok_iff.2 null, rfl⟩

/-! ## Objects -/

/-- The fields that have been seen, with those of further entries. -/
def fieldsOf (entries : List Entry) : ConfigFields where
  source := (entries.filterMap Entry.source?).head?
  quoting := (entries.filterMap Entry.quoting?).head?
  dottedEdgeSource := (entries.filterMap Entry.dotted?).head?

/-- Puts an entry into the fields that have been seen. -/
def putEntry (fields : ConfigFields) : Entry → Option ConfigFields
  | .source text => putOnce fields.source { fields with source := some text }
  | .quoting q => putOnce fields.quoting { fields with quoting := some q }
  | .dotted b => putOnce fields.dottedEdgeSource { fields with dottedEdgeSource := some b }
  | .unknown _ => some fields

theorem toConfig_fieldsOf (entries : List Entry) :
    (fieldsOf entries).toConfig = configOf entries := rfl

/-- The fields of an object are read as the grammar says. -/
theorem fields_config :
    Fields configField Entry.key Entry.ValueText putEntry where
  sound := by
    intro name state next cs rest taken
    unfold configField at taken
    split at taken
    · next same =>
      obtain ⟨unseen, inner, text, colon, read, rfl⟩ := readField_eq_ok_iff.1 taken
      exact ⟨.source text, inner, same.symm, colon, readText_eq_ok_iff.1 read,
        by simp [putEntry, putOnce, unseen]⟩
    · split at taken
      · next same =>
        obtain ⟨unseen, inner, q, colon, read, rfl⟩ := readField_eq_ok_iff.1 taken
        exact ⟨.quoting q, inner, same.symm, colon, readQuoting_eq_ok_iff.1 read,
          by simp [putEntry, putOnce, unseen]⟩
      · split at taken
        · next same =>
          obtain ⟨unseen, inner, b, colon, read, rfl⟩ := readField_eq_ok_iff.1 taken
          exact ⟨.dotted b, inner, same.symm, colon, readBoolean_eq_ok_iff.1 read,
            by simp [putEntry, putOnce, unseen]⟩
        · obtain ⟨inner, colon, skipped, rfl⟩ := skipField_eq_ok_iff.1 taken
          refine ⟨.unknown name, inner, rfl, colon, ⟨?_, skipped_of_skipValue skipped⟩, rfl⟩
          simp_all [fieldNames]
  complete := by
    intro e state next cs inner rest colon value put ended
    cases e with
    | source text =>
      obtain ⟨unseen, rfl⟩ := putOnce_eq_some_iff.1 put
      rw [Entry.key, configField, if_pos rfl, readField_eq_ok_iff]
      exact ⟨unseen, inner, text, colon, readText_eq_ok_iff.2 value, rfl⟩
    | quoting q =>
      obtain ⟨unseen, rfl⟩ := putOnce_eq_some_iff.1 put
      rw [Entry.key, configField, if_neg (by decide), if_pos rfl, readField_eq_ok_iff]
      exact ⟨unseen, inner, q, colon, readQuoting_eq_ok_iff.2 value, rfl⟩
    | dotted b =>
      obtain ⟨unseen, rfl⟩ := putOnce_eq_some_iff.1 put
      rw [Entry.key, configField, if_neg (by decide), if_neg (by decide), if_pos rfl,
        readField_eq_ok_iff]
      exact ⟨unseen, inner, b, colon, readBoolean_eq_ok_iff.2 value, rfl⟩
    | unknown key =>
      obtain ⟨noField, skipped⟩ := value
      cases put
      simp only [fieldNames, List.mem_cons, List.not_mem_nil, or_false, not_or] at noField
      rw [Entry.key, configField, if_neg noField.1, if_neg noField.2.1, if_neg noField.2.2,
        skipField_eq_ok_iff]
      exact ⟨inner, colon, skipValue_of_skipped skipped ended, rfl⟩

/-- All entries can be put into the fields if together with what has been seen there is at
most one of each. -/
theorem foldlM_put_eq_some_iff {entries : List Entry} {fields last : ConfigFields} :
    entries.foldlM putEntry fields = some last ↔
      fields.source.toList ++ entries.filterMap Entry.source? = last.source.toList ∧
      fields.quoting.toList ++ entries.filterMap Entry.quoting? = last.quoting.toList ∧
      fields.dottedEdgeSource.toList ++ entries.filterMap Entry.dotted? =
        last.dottedEdgeSource.toList := by
  induction entries generalizing fields with
  | nil =>
    obtain ⟨source, quoting, dotted⟩ := fields
    obtain ⟨source', quoting', dotted'⟩ := last
    simp [eq_toList_iff, eq_comm]
  | cons e rest ih =>
    rw [List.foldlM_cons]
    simp only [List.filterMap_cons]
    cases e with
    | source text =>
      -- A field that has been seen cannot be put, and with it there would be two.
      cases seen : fields.source with
      | none => simp [putEntry, putOnce, seen, ih, Entry.source?, Entry.quoting?, Entry.dotted?]
      | some other => cases last.source <;> simp [putEntry, putOnce, seen, Entry.source?]
    | quoting q =>
      cases seen : fields.quoting with
      | none => simp [putEntry, putOnce, seen, ih, Entry.source?, Entry.quoting?, Entry.dotted?]
      | some other => cases last.quoting <;> simp [putEntry, putOnce, seen, Entry.quoting?]
    | dotted b =>
      cases seen : fields.dottedEdgeSource with
      | none => simp [putEntry, putOnce, seen, ih, Entry.source?, Entry.quoting?, Entry.dotted?]
      | some other => cases last.dottedEdgeSource <;> simp [putEntry, putOnce, seen, Entry.dotted?]
    | unknown key => simp [putEntry, ih, Entry.source?, Entry.quoting?, Entry.dotted?]

/-- The entries of an object make up its fields if none occurs twice. -/
theorem foldlM_put_empty_iff {entries : List Entry} {last : ConfigFields} :
    entries.foldlM putEntry {} = some last ↔ Once entries ∧ last = fieldsOf entries := by
  obtain ⟨source, quoting, dotted⟩ := last
  rw [foldlM_put_eq_some_iff]
  simp only [Option.toList_none, List.nil_append, eq_toList_iff, Once, fieldsOf,
    ConfigFields.mk.injEq]
  tauto

/-! ## Lists -/

theorem items_quoting : Items readQuoting QuotingText where
  reads := readQuoting_eq_ok_iff
  blanks := by
    intro cs q rest
    refine or_congr text_skipBlanks_iff ?_
    exact exists_congr fun _ => exists_congr fun _ => exists_congr fun _ =>
      and_congr_left fun _ => symbol_skipBlanks_iff (by decide)
  starts := by
    rintro cs q rest (text | ⟨_, _, _, opens, _⟩)
    · exact (items_text .string).starts text
    · exact starts_of_symbol opens (by decide) (by decide)

/-- The values of a list are read as the grammar says. -/
theorem readConfigList_eq_ok_iff {cs rest : List Char} {fields : ConfigFields} :
    readConfigList cs = .ok (fields, rest) ↔
      ∃ es, Separated ']' (fun cs e => Entry.ValueText e cs) true cs es rest ∧ InOrder es ∧
        fields = fieldsOf es := by
  simp only [readConfigList, readNext_eq_ok_iff (items_text .string),
    readNext_eq_ok_iff items_quoting, readNext_eq_ok_iff items_boolean]
  constructor
  · rintro (⟨_, closes, same⟩ | ⟨text, _, source, ⟨_, closes, same⟩ | ⟨q, _, quoting,
      ⟨_, closes, same⟩ | ⟨b, _, dotted, taken⟩⟩⟩)
    · cases same
      exact ⟨[], .close closes, .none, rfl⟩
    · cases same
      exact ⟨[.source text], separated_cons_iff.2 ⟨_, source, .close closes⟩, .source text, rfl⟩
    · cases same
      refine ⟨[.source text, .quoting q], ?_, .quoting text q, rfl⟩
      exact separated_cons_iff.2 ⟨_, source, separated_cons_iff.2 ⟨_, quoting, .close closes⟩⟩
    · obtain ⟨_, closes, same⟩ := map_eq_ok.1 taken
      cases same
      refine ⟨[.source text, .quoting q, .dotted b], ?_, .dotted text q b, rfl⟩
      exact separated_cons_iff.2 ⟨_, source, separated_cons_iff.2 ⟨_, quoting,
        separated_cons_iff.2 ⟨_, dotted, .close (closeList_eq_ok_iff.1 closes)⟩⟩⟩
  · rintro ⟨es, separated, order, rfl⟩
    cases order with
    | none => exact .inl ⟨_, separated_nil_iff.1 separated, rfl⟩
    | source text =>
      obtain ⟨_, source, others⟩ := separated_cons_iff.1 separated
      exact .inr ⟨text, _, source, .inl ⟨_, separated_nil_iff.1 others, rfl⟩⟩
    | quoting text q =>
      obtain ⟨_, source, others⟩ := separated_cons_iff.1 separated
      obtain ⟨_, quoting, others⟩ := separated_cons_iff.1 others
      exact .inr ⟨text, _, source, .inr ⟨q, _, quoting, .inl ⟨_, separated_nil_iff.1 others, rfl⟩⟩⟩
    | dotted text q b =>
      obtain ⟨_, source, others⟩ := separated_cons_iff.1 separated
      obtain ⟨_, quoting, others⟩ := separated_cons_iff.1 others
      obtain ⟨_, dotted, others⟩ := separated_cons_iff.1 others
      have closes := closeList_eq_ok_iff.2 (separated_nil_iff.1 others)
      exact .inr ⟨text, _, source, .inr ⟨q, _, quoting, .inr ⟨b, _, dotted,
        map_eq_ok.2 ⟨rest, closes, rfl⟩⟩⟩⟩

/-! ## Whole texts -/

/-- A reader is asked for the whole text, but for blanks at its end. -/
theorem readAll_eq_ok_iff {α : Type} {read : Reader α} {text : String} {a : α} :
    readAll read text = .ok a ↔ ∃ rest, read text.toList = .ok (a, rest) ∧ Blanks rest [] := by
  unfold readAll
  constructor
  · intro taken
    split at taken
    · cases taken
    · next b rest read =>
      split at taken
      · next none =>
        cases taken
        exact ⟨rest, read, blanks_nil_iff.2 none⟩
      · cases taken
  · rintro ⟨rest, read, blanks⟩
    rw [read]
    simp [blanks_nil_iff.1 blanks]

theorem readConfig_eq_ok_iff {cs rest : List Char} {c : Config} :
    readConfig cs = .ok (c, rest) ↔
      ∃ es, (ObjectText cs es rest ∨ ListText cs es rest) ∧ c = configOf es := by
  constructor
  · intro taken
    unfold readConfig at taken
    split at taken
    · next inner start =>
      obtain ⟨⟨fields, behind⟩, read, same⟩ := map_eq_ok.1 taken
      cases same
      obtain ⟨es, separated, order, rfl⟩ := readConfigList_eq_ok_iff.1 read
      exact ⟨es, .inr ⟨inner, symbol_of_skipBlanks start, separated, order⟩, rfl⟩
    · next inner start =>
      obtain ⟨⟨fields, behind⟩, read, same⟩ := map_eq_ok.1 taken
      cases same
      obtain ⟨es, members, folded⟩ := exists_of_readMembers fields_config read
      obtain ⟨once, rfl⟩ := foldlM_put_empty_iff.1 folded
      exact ⟨es, .inl ⟨inner, symbol_of_skipBlanks start, members, once⟩, rfl⟩
    · cases taken
  · rintro ⟨es, ⟨inner, opens, members, once⟩ | ⟨inner, opens, separated, order⟩, rfl⟩
    · rw [readConfig, (symbol_iff (by decide)).1 opens]
      have read : readMembers configField configField_shrinks true {} inner =
          .ok (fieldsOf es, rest) :=
        readMembers_of_separated fields_config members (foldlM_put_empty_iff.2 ⟨once, rfl⟩)
      simp [read, Except.map, toConfig_fieldsOf]
    · rw [readConfig, (symbol_iff (by decide)).1 opens]
      have read := readConfigList_eq_ok_iff.2 ⟨es, separated, order, rfl⟩
      simp [read, Except.map, toConfig_fieldsOf]

/-! ## Order -/

theorem InOrder.once {entries : List Entry} (order : InOrder entries) : Once entries := by
  cases order <;>
    exact ⟨Nat.le_of_ble_eq_true rfl, Nat.le_of_ble_eq_true rfl, Nat.le_of_ble_eq_true rfl⟩

theorem ConfigText.once {text : String} {entries : List Entry} (written : ConfigText text entries) :
    Once entries := by
  obtain ⟨rest, ⟨_, _, _, once⟩ | ⟨_, _, _, order⟩, _⟩ := written
  · exact once
  · exact order.once

/-- What is given for a field that is given once at most does not depend on the order. -/
theorem filterMap_eq_of_perm {α : Type} {given : Entry → Option α} {a b : List Entry}
    (unknown : ∀ key, given (.unknown key) = none) (once : (a.filterMap given).length ≤ 1)
    (same : (a.filter Entry.isField).Perm (b.filter Entry.isField)) :
    a.filterMap given = b.filterMap given := by
  have fields (es : List Entry) :
      (es.filter Entry.isField).filterMap given = es.filterMap given := by
    rw [List.filterMap_filter]
    refine congrArg (es.filterMap ·) (funext fun e => ?_)
    cases e with
    | unknown key => exact (unknown key).symm
    | _ => rfl
  have given : (a.filterMap given).Perm (b.filterMap given) := by
    rw [← fields a, ← fields b]
    exact same.filterMap given
  match a.filterMap _, once, given with
  | [], _, given => exact given.nil_eq
  | [e], _, given => exact List.singleton_perm.1 given

/-- A configuration depends on the fields that are given, and not on their order. -/
theorem configOf_eq_of_perm {a b : List Entry} (once : Once a)
    (same : (a.filter Entry.isField).Perm (b.filter Entry.isField)) :
    configOf a = configOf b := by
  unfold configOf
  rw [filterMap_eq_of_perm (fun _ => rfl) once.1 same,
    filterMap_eq_of_perm (fun _ => rfl) once.2.1 same,
    filterMap_eq_of_perm (fun _ => rfl) once.2.2 same]

end Gremlin.Json

namespace Gremlin.Config

open Json (ConfigText configOf)

theorem ofJson_eq_ok_iff {text : String} {c : Config} :
    ofJson text = .ok c ↔ ∃ entries, ConfigText text entries ∧ c = configOf entries := by
  rw [ofJson, Json.readAll_eq_ok_iff]
  constructor
  · rintro ⟨rest, read, blanks⟩
    obtain ⟨entries, written, rfl⟩ := Json.readConfig_eq_ok_iff.1 read
    exact ⟨entries, ⟨rest, written, blanks⟩, rfl⟩
  · rintro ⟨entries, ⟨rest, written, blanks⟩, rfl⟩
    exact ⟨rest, Json.readConfig_eq_ok_iff.2 ⟨entries, written, rfl⟩, blanks⟩

/-- What becomes of a text that is a configuration. -/
theorem load_of_configText {text : String} {entries : List Json.Entry}
    (written : ConfigText text entries) : load text = (configOf entries).validate := by
  have read : ofJson text = .ok (configOf entries) := ofJson_eq_ok_iff.2 ⟨entries, written, rfl⟩
  rw [load, read]

/-- What becomes of any other text. -/
theorem load_of_not_configText {text : String} (other : ∀ entries, ¬ConfigText text entries) :
    ∃ m, load text = .error (.unreadableConfig m) := by
  unfold load
  split
  · exact ⟨_, rfl⟩
  · next c read =>
    obtain ⟨entries, written, _⟩ := ofJson_eq_ok_iff.1 read
    exact absurd written (other entries)

theorem exists_configText_of_load {text : String}
    (readable : ∀ m, load text ≠ .error (.unreadableConfig m)) :
    ∃ entries, ConfigText text entries := by
  refine Classical.byContradiction fun none => ?_
  obtain ⟨m, loaded⟩ := load_of_not_configText (not_exists.1 none)
  exact readable m loaded

/-- What is accepted as a configuration, and what is said of all other texts. Accepted are
the objects and lists of the grammar on whose source a statement can be written; a text that
is a configuration for another source is told so, and any other text cannot be read. Which
configuration it is depends on the fields that are given, and neither on their order nor on
how they are written. -/
theorem load_iff_configText (text : String) :
    (∀ c, load text = .ok c ↔
      ∃ entries, ConfigText text entries ∧ IsSourceName (configOf entries).source ∧
        c = configOf entries) ∧
    (∀ m, load text = .error (.invalidArgument m) ↔
      ∃ entries, ConfigText text entries ∧ ¬IsSourceName (configOf entries).source ∧
        m = "遍历源必须是标识符: " ++ Text.inspect (configOf entries).source) ∧
    ((∀ entries, ¬ConfigText text entries) ↔ ∃ m, load text = .error (.unreadableConfig m)) ∧
    ∀ other entries others, ConfigText text entries → ConfigText other others →
      (entries.filter Json.Entry.isField).Perm (others.filter Json.Entry.isField) →
      load text = load other := by
  refine ⟨fun c => ?_, fun m => ?_, ⟨load_of_not_configText, ?_⟩, ?_⟩
  · constructor
    · intro loaded
      obtain ⟨entries, written⟩ := exists_configText_of_load (by rw [loaded]; nofun)
      rw [load_of_configText written] at loaded
      obtain ⟨name, same⟩ := validate_eq_ok_iff_isSourceName.1 loaded
      exact ⟨entries, written, name, same⟩
    · rintro ⟨entries, written, name, rfl⟩
      rw [load_of_configText written]
      exact validate_eq_ok_iff_isSourceName.2 ⟨name, rfl⟩
  · constructor
    · intro loaded
      obtain ⟨entries, written⟩ := exists_configText_of_load (by rw [loaded]; nofun)
      rw [load_of_configText written] at loaded
      obtain ⟨noName, same⟩ := validate_eq_error_iff.1 loaded
      exact ⟨entries, written, noName, Error.invalidArgument.inj same⟩
    · rintro ⟨entries, written, noName, rfl⟩
      rw [load_of_configText written]
      exact validate_eq_error_iff.2 ⟨noName, rfl⟩
  · rintro ⟨m, loaded⟩ entries written
    rw [load_of_configText written] at loaded
    cases (validate_eq_error_iff.1 loaded).2
  · intro other entries others written written' same
    rw [load_of_configText written, load_of_configText written',
      Json.configOf_eq_of_perm written.once same]

end Gremlin.Config
