import Gremlin.Proofs.Session.Lineage
import Gremlin.Proofs.Session.Readable
import Gremlin.Proofs.SourceName

/-!
# How statements begin

Every statement starts on a source that is an identifier, whichever command started it.
Its first handle is the only one as long as the statement has no steps. The step that
ends this state picks all elements of a sort or adds one, and from then on no step picks
elements from the source again: the kind of no other handle takes it.

Results:
1. `Rooted.keeps`, `rooted_run`: handles at the root stand alone on statements without
   steps, and the steps of a statement are one entry and steps that follow it.
2. `source_discipline`: what this means for configurations, handles and texts.
-/

namespace Gremlin

/-! ## Definitions -/

/-- What the first step of a statement writes in a configuration. -/
inductive EntryText (c : Config) : String → Prop
  | vertices (args : String) : EntryText c (".V(" ++ args ++ ")")
  | edges (args : String) (plain : c.dottedEdgeSource = false) : EntryText c ("E(" ++ args ++ ")")
  | dottedEdges (args : String) (dotted : c.dottedEdgeSource = true) :
      EntryText c (".E(" ++ args ++ ")")
  | addedVertex (args : String) : EntryText c (".addV(" ++ args ++ ")")
  | addedEdge (args : String) : EntryText c (".addE(" ++ args ++ ")")

/-- What every later step writes: a dot and the call of a step other than `V` and `E`. -/
def LaterText (text : String) : Prop :=
  ∃ (h : Head) (args : String), h.name ≠ "V" ∧ h.name ≠ "E" ∧
    text = "." ++ h.name ++ "(" ++ args ++ ")"

/-- Whether a step picks elements from the source. -/
def Step.isStart : AppendedStep → Bool
  | .start _ _ => true
  | _ => false

/-- Whether a statement can begin with a step. -/
def Step.isEntry : AppendedStep → Bool
  | .start _ _ | .add _ _ => true
  | _ => false

/-- The steps are one entry, and steps that do not pick elements from the source again. -/
def Entered (steps : List AppendedStep) : Prop :=
  ∃ entry later, steps = entry :: later ∧ Step.isEntry entry = true ∧
    ∀ step ∈ later, Step.isStart step = false

/-! ## Texts of steps -/

theorem entryText_fragment (c : Config) {step : AppendedStep} (entry : Step.isEntry step = true) :
    EntryText c (Statement.fragment c step) := by
  cases step with
  | start e id =>
    cases e with
    | vertex => exact .vertices _
    | edge =>
      rw [Statement.fragment, Statement.edgeSeparator]
      cases dotted : c.dottedEdgeSource with
      | false => exact .edges _ dotted
      | true => exact .dottedEdges _ dotted
  | add e label =>
    cases e with
    | vertex => exact .addedVertex _
    | edge => exact .addedEdge _
  | _ => cases entry

theorem laterText_fragment (c : Config) {step : AppendedStep}
    (later : Step.isStart step = false) : LaterText (Statement.fragment c step) := by
  have other (h : Head) (notStart : ∀ e, h ≠ .start e) : h.name ≠ "V" ∧ h.name ≠ "E" := by
    cases h with
    | start e => exact absurd rfl (notStart e)
    | add e | move e | project e | general e | endpoint e => cases e <;> decide
    | _ => decide
  refine ⟨step.head, Statement.argumentText c step, ?_⟩
  cases step with
  | start e id => cases later
  | _ =>
    rw [← and_assoc]
    exact ⟨other _ (fun _ => nofun), rfl⟩

/-! ## Entries -/

theorem entered_singleton {step : AppendedStep} (entry : Step.isEntry step = true) :
    Entered [step] :=
  ⟨step, [], rfl, entry, by simp⟩

theorem Entered.snoc {steps : List AppendedStep} {step : AppendedStep} (entered : Entered steps)
    (later : Step.isStart step = false) : Entered (steps ++ [step]) := by
  obtain ⟨entry, rest, split, begins, follow⟩ := entered
  refine ⟨entry, rest ++ [step], by simp [split], begins, fun other member => ?_⟩
  rcases List.mem_append.1 member with before | now
  · exact follow other before
  · rw [List.mem_singleton.1 now]
    exact later

/-! ## Kinds -/

namespace Kind

theorem isEntry_of_root {step : AppendedStep} {k : Kind} (follows : root.next? step = some k) :
    Step.isEntry step = true := by
  cases step with
  | start e id | add e id => rfl
  | modulate key => cases key <;> cases follows
  | general g => cases g <;> cases follows
  | _ => cases follows

theorem isStart_of_chained {step : AppendedStep} {k l : Kind} (chained : k ≠ root)
    (follows : k.next? step = some l) : Step.isStart step = false := by
  cases step with
  | start e id => exact absurd (next?_start_eq_some_iff.1 follows).1 chained
  | _ => rfl

end Kind

/-! ## What holds of every session -/

namespace Session

/-- Statements begin on their source, and handles at the root are alone. -/
structure Rooted (s : Session) : Prop where
  named : ∀ statement ∈ s.statements, Config.isIdentifier statement.config.source.toList = true
  entered : ∀ statement ∈ s.statements, statement.steps = [] ∨ Entered statement.steps
  fresh : ∀ {name : String} {handle : Handle} {statement : Statement},
    s.find? name = some (handle, statement) → (handle.kind = .root ↔ statement.steps = [])
  alone : ∀ {a b : String} {handle other : Handle} {statement statement' : Statement},
    s.find? a = some (handle, statement) → handle.kind = .root →
    s.find? b = some (other, statement') → other.statement = handle.statement → b = a

/-- A statement that a handle away from the root shows begins with an entry. -/
theorem Rooted.entered_of_find? {s : Session} (rooted : Rooted s) {name : String}
    {handle : Handle} {statement : Statement} (found : s.find? name = some (handle, statement))
    (chained : handle.kind ≠ .root) : Entered statement.steps := by
  have inside := List.mem_of_getElem? (find?_eq_some_iff.1 found).2
  rcases rooted.entered statement inside with none | entered
  · exact absurd ((rooted.fresh found).2 none) chained
  · exact entered

/-- A step at the root is an entry, and any other follows one. -/
theorem Rooted.entered_append {s : Session} (rooted : Rooted s) {name : String} {handle : Handle}
    {statement : Statement} (found : s.find? name = some (handle, statement))
    {step : AppendedStep} {kind : Kind} (follows : handle.kind.next? step = some kind) :
    Entered (statement.append step).steps := by
  rw [Statement.steps_append]
  by_cases root : handle.kind = .root
  · rw [(rooted.fresh found).1 root]
    exact entered_singleton (Kind.isEntry_of_root (root ▸ follows))
  · exact (rooted.entered_of_find? found root).snoc (Kind.isStart_of_chained root follows)

theorem Rooted.erased {s : Session} (rooted : Rooted s) (h : String) :
    Rooted { s with handles := s.handles.erase h } := by
  have before {name : String} {pair : Handle × Statement}
      (found : ({ s with handles := s.handles.erase h } : Session).find? name = some pair) :
      s.find? name = some pair := by
    rw [find?_erase] at found
    split at found
    · cases found
    · exact found
  exact ⟨rooted.named, rooted.entered, fun found => rooted.fresh (before found),
    fun ha root hb same => rooted.alone (before ha) root (before hb) same⟩

theorem Rooted.started {s : Session} {g : Chronicle} (traced : Traced s g) (rooted : Rooted s)
    (into : String) {c : Config} (identifier : Config.isIdentifier c.source.toList = true) :
    Rooted (s.start into c).2 := by
  have cases_of {name : String} {handle : Handle} {statement : Statement}
      (found : (s.start into c).2.find? name = some (handle, statement)) :
      name = into ∧ handle = ⟨s.statements.length, .root⟩ ∧ statement = .ofConfig c ∨
        s.find? name = some (handle, statement) ∧ handle.statement < s.statements.length := by
    rw [find?_start traced.live] at found
    split at found
    · next here =>
      cases found
      exact .inl ⟨here.symm, rfl, rfl⟩
    · exact .inr ⟨found, statement_lt_of_find? found⟩
  refine ⟨fun statement member => ?_, fun statement member => ?_, fun found => ?_,
    fun ha root hb same => ?_⟩
  · rcases List.mem_append.1 member with old | new
    · exact rooted.named statement old
    · rw [List.mem_singleton.1 new]
      exact identifier
  · rcases List.mem_append.1 member with old | new
    · exact rooted.entered statement old
    · rw [List.mem_singleton.1 new]
      exact .inl rfl
  · rcases cases_of found with ⟨-, rfl, rfl⟩ | ⟨old, -⟩
    · exact ⟨fun _ => rfl, fun _ => rfl⟩
    · exact rooted.fresh old
  · rcases cases_of ha with ⟨rfl, rfl, -⟩ | ⟨oldA, liveA⟩ <;>
      rcases cases_of hb with ⟨rfl, rfl, -⟩ | ⟨oldB, liveB⟩
    · rfl
    · exact absurd same (Nat.ne_of_lt liveB)
    · exact absurd same.symm (Nat.ne_of_lt liveA)
    · exact rooted.alone oldA root oldB same

theorem Rooted.cloned {s : Session} (rooted : Rooted s) {h : String} {held : Handle}
    {shown : Statement} (found : s.find? h = some (held, shown)) (chained : held.kind ≠ .root)
    (into : String) : Rooted { s with handles := s.handles.set into held } := by
  have cases_of {name : String} {handle : Handle} {statement : Statement}
      (bound : ({ s with handles := s.handles.set into held } : Session).find? name =
        some (handle, statement)) :
      handle = held ∧ statement = shown ∨ s.find? name = some (handle, statement) := by
    rw [find?_set (find?_eq_some_iff.1 found).2] at bound
    split at bound
    · cases bound
      exact .inl ⟨rfl, rfl⟩
    · exact .inr bound
  refine ⟨rooted.named, rooted.entered, fun bound => ?_, fun ha root hb same => ?_⟩
  · rcases cases_of bound with ⟨rfl, rfl⟩ | old
    · exact rooted.fresh found
    · exact rooted.fresh old
  · rcases cases_of ha with ⟨rfl, rfl⟩ | oldA
    · exact absurd root chained
    · rcases cases_of hb with ⟨rfl, rfl⟩ | oldB
      · have sameName := rooted.alone oldA root found same
        rw [sameName, oldA] at found
        cases found
        exact absurd root chained
      · exact rooted.alone oldA root oldB same

theorem Rooted.appended {s : Session} (rooted : Rooted s) {h : String} {held : Handle}
    {shown : Statement} (found : s.find? h = some (held, shown)) (into : String) {kind : Kind}
    {step : AppendedStep} (follows : held.kind.next? step = some kind) :
    Rooted (s.append h into held shown kind step).2 := by
  have inside := List.mem_of_getElem? (find?_eq_some_iff.1 found).2
  have left : kind ≠ .root := fun same => Kind.next?_ne_root (same ▸ follows)
  -- A handle after the step is the one it made, shares its statement or is as it was.
  have cases_of {name : String} {handle : Handle} {statement : Statement}
      (bound : (s.append h into held shown kind step).2.find? name = some (handle, statement)) :
      handle.kind ≠ .root ∧ statement = shown.append step ∧
          handle.statement = held.statement ∨
        s.find? name = some (handle, statement) ∧ held.statement ≠ handle.statement := by
    rw [find?_append found] at bound
    split at bound
    · cases bound
      exact .inl ⟨left, rfl, rfl⟩
    · split at bound
      · cases bound
      · next notAsked =>
        obtain ⟨⟨other, before⟩, old, whole⟩ := Option.map_eq_some_iff.1 bound
        simp only [Prod.mk.injEq] at whole
        obtain ⟨rfl, rfl⟩ := whole
        by_cases same : held.statement = other.statement
        · refine .inl ⟨fun root => ?_, if_pos same, same.symm⟩
          exact notAsked (rooted.alone old root found same)
        · rw [if_neg same]
          exact .inr ⟨old, same⟩
  refine ⟨fun statement member => ?_, fun statement member => ?_, fun bound => ?_,
    fun ha root hb same => ?_⟩
  · rcases List.mem_or_eq_of_mem_set member with old | rfl
    · exact rooted.named statement old
    · exact rooted.named shown inside
  · rcases List.mem_or_eq_of_mem_set member with old | rfl
    · exact rooted.entered statement old
    · exact .inr (rooted.entered_append found follows)
  · rcases cases_of bound with ⟨notRoot, rfl, -⟩ | ⟨old, -⟩
    · exact ⟨fun root => absurd root notRoot, fun none => by simp at none⟩
    · exact rooted.fresh old
  · rcases cases_of ha with ⟨notRoot, -, -⟩ | ⟨oldA, elsewhere⟩
    · exact absurd root notRoot
    · rcases cases_of hb with ⟨-, -, here⟩ | ⟨oldB, -⟩
      · exact absurd (here.symm.trans same) elsewhere
      · exact rooted.alone oldA root oldB same

theorem Rooted.keeps {s next : Session} {g : Chronicle} {c : Command} {a : Answer}
    {e : Option Event} (t : Transition s c a e next) (traced : Traced s g) (rooted : Rooted s) :
    Rooted next := by
  cases t with
  | observed _ | refused => exact rooted
  | started opens => exact rooted.started traced _ (isIdentifier_of_opening opens)
  | forgotten | spent _ => exact rooted.erased _
  | cloned found chained => exact rooted.cloned found chained _
  | appended found _ grammatical _ => exact rooted.appended found _ grammatical

theorem rooted_run (commands : List Command) : Rooted (reached commands) := by
  have initial : Rooted {} := by
    refine ⟨by simp, by simp, fun found => ?_, fun found => ?_⟩ <;> simp [find?] at found
  have all : Traced (reached commands) (chronicle commands) ∧ Rooted (reached commands) :=
    run_invariant (P := fun s g => Traced s g ∧ Rooted s) (fun _ => True)
      (fun _ t ⟨traced, rooted⟩ => ⟨traced.keeps t, rooted.keeps t traced⟩)
      (fun _ _ => trivial) ⟨traced_run [], initial⟩
  exact all.2

/-! ## Texts and handles -/

theorem Rooted.text_ne_empty {s : Session} (rooted : Rooted s) {statement : Statement}
    (member : statement ∈ s.statements) : statement.text ≠ "" := by
  have source := (Config.isSourceName_iff.1 (rooted.named statement member)).ne_empty
  rw [Statement.text_eq]
  intro empty
  exact source (String.append_eq_empty_iff.1 empty).1

/-- A handle at the root shows nothing but its source. -/
theorem Rooted.text_of_root {s : Session} (rooted : Rooted s) {name : String} {handle : Handle}
    {statement : Statement} (found : s.find? name = some (handle, statement))
    (root : handle.kind = .root) : statement.text = statement.config.source := by
  rw [Statement.text_eq, (rooted.fresh found).1 root, Statement.fragments, String.append_empty]

/-- Any other handle shows the source, an entry, and later steps. -/
theorem Rooted.text_of_chained {s : Session} {events : List Event} (rooted : Rooted s)
    (logged : Logged s events) {name : String} {handle : Handle} {statement : Statement}
    (found : s.find? name = some (handle, statement)) (chained : handle.kind ≠ .root) :
    ∃ entry later, eventsOn handle.statement events = entry :: later ∧
      statement.text = statement.config.source ++ entry.fragment ++
        String.join (later.map Event.fragment) ∧
      EntryText statement.config entry.fragment ∧ ∀ e ∈ later, LaterText e.fragment := by
  have shown := (find?_eq_some_iff.1 found).2
  obtain ⟨entry, later, split, begins, follow⟩ := rooted.entered_of_find? found chained
  rw [logged.steps _ _ shown] at split
  obtain ⟨first, rest, events, rfl, rfl⟩ := List.map_eq_cons_iff.1 split
  have written := logged.fragments _ _ shown
  rw [events] at written
  refine ⟨first, rest, events, ?_, ?_, fun e member => ?_⟩
  · rw [logged.text shown, events, List.map_cons, String.join_cons, String.append_assoc]
  · rw [written first List.mem_cons_self]
    exact entryText_fragment _ begins
  · rw [written e (List.mem_cons_of_mem _ member)]
    exact laterText_fragment _ (follow e.step (List.mem_map_of_mem member))

/-- A step that picks elements from the source is the first on its statement. -/
theorem Rooted.first_of_isStart {s : Session} {before after : List Event} {e : Event}
    (rooted : Rooted s) (logged : Logged s (before ++ e :: after))
    (picks : Step.isStart e.step = true) : eventsOn e.statement before = [] := by
  have live : e.statement < s.statements.length := logged.bounded e (by simp)
  have steps := logged.steps _ _ (List.getElem?_eq_getElem live)
  rw [eventsOn_append, ← List.singleton_append, eventsOn_append, eventsOn_singleton_self] at steps
  cases earlier : eventsOn e.statement before with
  | nil => rfl
  | cons first rest =>
    rw [earlier] at steps
    rcases rooted.entered _ (List.getElem_mem live) with none | ⟨entry, later, whole, -, follow⟩
    · simp [none] at steps
    · -- What comes behind an entry does not pick elements.
      rw [whole] at steps
      have inside : e.step ∈ later := by
        rw [(List.cons.inj steps).2]
        simp
      rw [follow e.step inside] at picks
      cases picks

/-- Every handle says that its text is not empty. -/
theorem Rooted.size_exec {s : Session} (rooted : Rooted s) {name : String} {handle : Handle}
    {statement : Statement} (found : s.find? name = some (handle, statement)) :
    (s.exec (.size name)).1 = .size statement.text.utf8ByteSize false := by
  have inside := List.mem_of_getElem? (find?_eq_some_iff.1 found).2
  have full : statement.text.isEmpty = false := Bool.eq_false_iff.2 fun empty =>
    rooted.text_ne_empty inside (String.isEmpty_iff.1 empty)
  simp only [exec, observe, found, full]

/-- The source of every statement is an identifier, whichever command started it. A
handle at the root is the only one on its statement, whose text is the source. The text
of any other handle's statement is the source, one entry, and calls after dots that pick
no elements from the source; such a step is never appended to a statement with steps. No
text is empty, and every handle says so. -/
theorem source_discipline (commands : List Command) :
    (∀ statement ∈ (reached commands).statements,
      statement.config.validate = .ok statement.config ∧
      IsSourceName statement.config.source ∧ statement.text ≠ "") ∧
    (∀ name handle statement, (reached commands).find? name = some (handle, statement) →
      handle.kind = .root →
      statement.text = statement.config.source ∧
      ∀ other handle', (reached commands).handles.get? other = some handle' →
        handle'.statement = handle.statement → other = name) ∧
    (∀ name handle statement, (reached commands).find? name = some (handle, statement) →
      handle.kind ≠ .root →
      ∃ entry later,
        eventsOn handle.statement (chronicle commands).events = entry :: later ∧
        statement.text = statement.config.source ++ entry.fragment ++
          String.join (later.map Event.fragment) ∧
        EntryText statement.config entry.fragment ∧ ∀ e ∈ later, LaterText e.fragment) ∧
    (∀ before e after, (chronicle commands).events = before ++ e :: after →
      Step.isStart e.step = true → eventsOn e.statement before = []) ∧
    (∀ name handle, (reached commands).handles.get? name = some handle →
      ∃ bytes, ((reached commands).exec (.size name)).1 = .size bytes false) := by
  have rooted := rooted_run commands
  have logged := logged_run commands
  -- The handles of a session have statements, so `find?` finds what is bound.
  have find {name : String} {handle : Handle}
      (bound : (reached commands).handles.get? name = some handle) :
      ∃ statement, (reached commands).find? name = some (handle, statement) :=
    ⟨_, find?_eq_some_iff.2 ⟨bound, List.getElem?_eq_getElem ((traced_run commands).live bound)⟩⟩
  refine ⟨fun statement member => ?_, fun name handle statement found root => ⟨?_, ?_⟩,
    fun name handle statement found chained => rooted.text_of_chained logged found chained,
    fun before e after split picks => ?_, fun name handle bound => ?_⟩
  · have identifier := rooted.named statement member
    exact ⟨Config.validate_eq_ok_iff.2 ⟨identifier, rfl⟩, Config.isSourceName_iff.1 identifier,
      rooted.text_ne_empty member⟩
  · exact rooted.text_of_root found root
  · intro other handle' bound same
    obtain ⟨statement', found'⟩ := find bound
    exact rooted.alone found root found' same
  · rw [split] at logged
    exact rooted.first_of_isStart logged picks
  · obtain ⟨statement, found⟩ := find bound
    exact ⟨_, rooted.size_exec found⟩

end Session

end Gremlin
