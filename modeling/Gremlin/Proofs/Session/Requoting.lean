import Gremlin.Proofs.Session.Chronicle
import Gremlin.Proofs.Writing.Glyphs

/-!
# A script in two ways of quoting

Nothing that a session decides depends on how its statements are quoted. So a script can
be run with all its configurations changed to one way of quoting: the same commands fail
for the same reasons, the same handles show the same statements, and only the texts differ.
Escaped texts have one backslash more for each backslash and single quote of a string
argument, those of embedded goals included.

Results:
1. `alike_exec`: a command does the same to the requoted session.
2. `alike_run`: a script does the same when it is requoted.
3. `verbatim_escaped_correspond`: how the verbatim run and the escaped run of a script
   differ.
-/

namespace Gremlin

/-! ## Definitions -/

/-- The command with the configuration it starts a statement in quoted in another way. -/
def Command.requote (q : Quoting) : Command → Command
  | .new into => .withConfig into (Config.requote q {})
  | .withConfig into c => .withConfig into (c.requote q)
  | .withJson into json =>
    match Config.load json with
    | .ok c => .withConfig into (c.requote q)
    | .error _ => .withJson into json
  | c => c

/-- An answer without what depends on the text of a statement or tells how it is quoted.
Whether the text is empty is kept. -/
def Answer.mask : Answer → Answer
  | .handle kind _ => .handle kind ""
  | .size _ isEmpty => .size 0 isEmpty
  | .config c => .config (c.requote .verbatim)
  | .inspected _ => .inspected ""
  | a => a

namespace Session

/-- The session with all statements quoted in one way throughout. -/
def requote (q : Quoting) (s : Session) : Session :=
  { s with statements := s.statements.map (Statement.requote q) }

/-- The answers to a script in one way of quoting. -/
def requotedAnswers (q : Quoting) (commands : List Command) : List Answer :=
  (run {} (commands.map (Command.requote q))).1

/-- The session that a script in one way of quoting leads to. -/
def requotedReached (q : Quoting) (commands : List Command) : Session :=
  reached (commands.map (Command.requote q))

/-- How the escaped statement differs from the verbatim one. -/
structure Corresponds (verbatim escaped : Statement) : Prop where
  /-- The configurations differ in the way of quoting. -/
  config : verbatim.config.quoting = .verbatim ∧
    escaped.config = verbatim.config.requote .escaped
  /-- The characters come from the same places. -/
  glyphs : escaped.glyphs = verbatim.glyphs
  /-- String arguments put those there that are quoted, and no others. -/
  quoted : Glyph.quotedChars verbatim.glyphs = verbatim.strings.flatMap String.toList
  /-- The verbatim text is the characters. -/
  verbatimText : verbatim.text.toList = verbatim.glyphs.map Glyph.char
  /-- The escaped text has one backslash before each backslash and single quote that is
  quoted. -/
  escapedText : escaped.text.toList = verbatim.glyphs.flatMap fun g =>
    if g.quoted && (g.char == '\\' || g.char == '\'') then ['\\', g.char] else [g.char]
  /-- The texts are the same if there is no such character, and only then. -/
  same : verbatim.text = escaped.text ↔ verbatim.specials = 0
  /-- Each of them makes the text longer by one byte. -/
  size : escaped.text.utf8ByteSize = verbatim.text.utf8ByteSize + verbatim.specials

/-- What a requoted session does: it answers alike, and goes on to the requoted session. -/
structure Alike (q : Quoting) (original requoted : Answer × Session) : Prop where
  /-- The answers differ in texts and the way of quoting only. -/
  answer : requoted.1.mask = original.1.mask
  /-- The session goes on requoted. -/
  next : requoted.2 = original.2.requote q

end Session

/-! ## Statements -/

namespace Statement

theorem requote_eq (q : Quoting) (s : Statement) :
    s.requote q = ⟨s.config.requote q, s.steps.map (requoteStep q)⟩ := by
  obtain ⟨config, steps⟩ := s
  rw [requote, Statement.mk.injEq]
  refine ⟨rfl, ?_⟩
  induction steps with
  | nil => rfl
  | cons step rest ih => rw [requoteSteps, ih, List.map_cons]

theorem config_requote (q : Quoting) (s : Statement) :
    (s.requote q).config = s.config.requote q := by
  rw [requote_eq]

theorem requote_ofConfig (q : Quoting) (c : Config) :
    (ofConfig c).requote q = ofConfig (c.requote q) := by
  rw [requote_eq]
  rfl

theorem requote_append (q : Quoting) (s : Statement) (step : AppendedStep) :
    (s.append step).requote q = (s.requote q).append (requoteStep q step) := by
  simp [requote_eq, append]

theorem text_eq_empty_iff {s : Statement} :
    s.text = "" ↔ s.config.source = "" ∧ s.steps = [] := by
  rw [text_eq]
  cases s.steps with
  | nil => simp [fragments]
  | cons step rest => simp [fragments, fragment_ne_empty]

/-- How a statement is quoted does not decide whether its text is empty. -/
theorem isEmpty_text_requote (q : Quoting) (s : Statement) :
    (s.requote q).text.isEmpty = s.text.isEmpty := by
  have same : (s.requote q).text = "" ↔ s.text = "" := by
    simp [text_eq_empty_iff, requote_eq]
  rw [Bool.eq_iff_iff, String.isEmpty_iff, String.isEmpty_iff, same]

end Statement

namespace Session

variable {q : Quoting} {s : Session}

open Statement (requoteStep requote_ofConfig requote_append config_requote isEmpty_text_requote)

/-! ## Handles and steps -/

theorem find?_requote (q : Quoting) (s : Session) (name : String) :
    (s.requote q).find? name =
      (s.find? name).map fun (handle, statement) => (handle, statement.requote q) := by
  unfold find? requote
  dsimp only
  cases s.handles.get? name with
  | none => rfl
  | some handle =>
    simp only [Option.bind_eq_bind, Option.bind_some, List.getElem?_map]
    cases s.statements[handle.statement]? <;> rfl

theorem goal_requote (q : Quoting) (s : Session) (h name : String) :
    (s.requote q).goal h name = (s.goal h name).map (Statement.requote q) := by
  unfold goal
  rw [find?_requote]
  split
  · rfl
  · cases s.find? name with
    | none => rfl
    | some pair =>
      dsimp only [Option.map_some]
      split <;> rfl

/-- The arguments of a step are made alike. -/
theorem resolve_requote (q : Quoting) (s : Session) (h : String) (asked : AskedStep) :
    (s.requote q).resolve h asked = (s.resolve h asked).map (requoteStep q) := by
  cases asked with
  | endpoint e name =>
    rw [resolve, resolve, goal_requote]
    cases s.goal h name <;> rfl
  | has name value =>
    rw [resolve, resolve]
    cases value.build.mapError Refusal.failed <;> rfl
  | _ => rfl

theorem next?_requoteStep (q : Quoting) (kind : Kind) (step : AppendedStep) :
    kind.next? (requoteStep q step) = kind.next? step := by
  cases step <;> rfl

theorem fault?_requoteStep (q : Quoting) (step : AppendedStep) :
    (requoteStep q step).fault? = step.fault? := by
  cases step <;> rfl

/-! ## One command -/

theorem alike_same (a : Answer) : Alike q (a, s) (a, s.requote q) := ⟨rfl, rfl⟩

theorem alike_start (into : String) (c : Config) :
    Alike q (s.start into c) ((s.requote q).start into (c.requote q)) := by
  refine ⟨rfl, ?_⟩
  simp [start, requote, requote_ofConfig]

theorem alike_start? (into : String) (r : Except Error Config) :
    Alike q (s.start? into r)
      ((s.requote q).start? into (r.map (Config.requote q))) := by
  cases r with
  | ok c => exact alike_start into c
  | error e => exact alike_same _

/-- Whether a configuration is valid does not depend on its way of quoting. -/
theorem validate_requote (q : Quoting) (c : Config) :
    (c.requote q).validate = c.validate.map (Config.requote q) := by
  unfold Config.validate Config.requote
  split <;> rfl

theorem alike_observe {answer requoted : Handle → Statement → Answer} (name : String)
    (same : ∀ handle statement,
      (requoted handle (statement.requote q)).mask = (answer handle statement).mask) :
    Alike q (s.observe name answer, s) ((s.requote q).observe name requoted, s.requote q) := by
  refine ⟨?_, rfl⟩
  unfold observe
  rw [find?_requote]
  cases s.find? name with
  | none => rfl
  | some pair => exact same pair.1 pair.2

theorem alike_step (h into : String) (asked : AskedStep) :
    Alike q (s.step h into asked) ((s.requote q).step h into asked) := by
  unfold step
  rw [find?_requote, resolve_requote]
  cases s.find? h with
  | none => exact alike_same _
  | some pair =>
    obtain ⟨handle, statement⟩ := pair
    dsimp only [Option.map_some]
    cases s.resolve h asked with
    | error r => exact alike_same _
    | ok made =>
      dsimp only [Except.map]
      rw [next?_requoteStep, fault?_requoteStep]
      cases handle.kind.next? made with
      | none => exact alike_same _
      | some kind =>
        cases made.fault? with
        | some e => exact ⟨rfl, rfl⟩
        | none =>
          refine ⟨rfl, ?_⟩
          simp [append, requote, requote_append, List.map_set]

/-- A command does the same to the requoted session. -/
theorem alike_exec (c : Command) :
    Alike q (s.exec c) ((s.requote q).exec (c.requote q)) := by
  cases c with
  | new into =>
    rw [Command.requote, exec, exec, validate_requote, Config.validate_default]
    exact alike_start into {}
  | withConfig into c =>
    rw [Command.requote, exec, exec, validate_requote]
    exact alike_start? into c.validate
  | withJson into json =>
    -- A text that is refused was left as it is, and is refused again.
    cases loaded : Config.load json with
    | error e =>
      simp only [Command.requote, exec, loaded]
      exact alike_same _
    | ok c =>
      simp only [Command.requote, exec, loaded, validate_requote, Config.validate_of_load loaded]
      exact alike_start into c
  | view h => exact alike_observe h fun _ _ => by rw [Answer.mask, Answer.mask]
  | size h =>
    refine alike_observe h fun _ statement => ?_
    rw [Answer.mask, Answer.mask, isEmpty_text_requote]
  | config h =>
    refine alike_observe h fun _ statement => ?_
    rw [config_requote]
    rfl
  | inspect h => exact alike_observe h fun _ _ => by rw [Answer.mask, Answer.mask]
  | same h other =>
    refine alike_observe h fun handle _ => ?_
    exact (alike_observe other fun _ _ => rfl).answer
  | forget h =>
    simp only [exec, Command.requote]
    rw [find?_requote]
    cases s.find? h <;> exact ⟨rfl, rfl⟩
  | clone h into =>
    simp only [exec, Command.requote, clone]
    rw [find?_requote]
    cases s.find? h with
    | none => exact ⟨rfl, rfl⟩
    | some pair =>
      dsimp only [Option.map_some]
      split <;> exact ⟨rfl, rfl⟩
  | step h into asked => exact alike_step h into asked

/-! ## Runs -/

/-- A script does the same when it is requoted. -/
theorem alike_run (q : Quoting) (s : Session) (commands : List Command) :
    ((s.requote q).run (commands.map (Command.requote q))).1.map Answer.mask =
        (s.run commands).1.map Answer.mask ∧
      ((s.requote q).run (commands.map (Command.requote q))).2 = (s.run commands).2.requote q := by
  induction commands generalizing s with
  | nil => exact ⟨rfl, rfl⟩
  | cons c rest ih =>
    have first := alike_exec (q := q) (s := s) c
    have later := ih (s.exec c).2
    simp only [List.map_cons, run, first.next, first.answer, later.1, later.2, and_self]

theorem requotedReached_eq (q : Quoting) (commands : List Command) :
    requotedReached q commands = (reached commands).requote q :=
  (alike_run q {} commands).2

theorem requotedAnswers_mask (q : Quoting) (commands : List Command) :
    (requotedAnswers q commands).map Answer.mask = (run {} commands).1.map Answer.mask :=
  (alike_run q {} commands).1

/-- The two ways of quoting a statement differ by the backslashes. -/
theorem corresponds_requote (s : Statement) :
    Corresponds (s.requote .verbatim) (s.requote .escaped) := by
  have glyphs := Statement.glyphs_requote
  have plain : (s.requote .verbatim).text = String.ofList (Glyph.write .verbatim s.glyphs) := by
    rw [← Statement.toList_text_requote, String.ofList_toList]
  have marked : (s.requote .escaped).text = String.ofList (Glyph.write .escaped s.glyphs) := by
    rw [← Statement.toList_text_requote, String.ofList_toList]
  have count : (s.requote .verbatim).specials = s.glyphs.countP Glyph.isEscaped := by
    rw [← Statement.countP_isEscaped_glyphs, glyphs]
  constructor
  case config =>
    rw [config_requote, config_requote]
    exact ⟨rfl, rfl⟩
  case glyphs => rw [glyphs, glyphs]
  case quoted => exact Statement.quotedChars_glyphs _
  case verbatimText =>
    rw [Statement.toList_text_requote, Glyph.write_verbatim, glyphs]
  case escapedText =>
    rw [Statement.toList_text_requote, glyphs]
    rfl
  case same =>
    rw [plain, marked, count, String.ofList_inj]
    exact Glyph.write_verbatim_eq_write_escaped_iff
  case size =>
    rw [plain, marked, count]
    exact Glyph.byteSize_write_escaped _

/-- The verbatim run and the escaped run of a script differ in texts only. They are
answered alike, down to the reasons of refusals, kinds and which handles show the same
statement. Each escaped text has one backslash more for each backslash and single quote
that comes from a string argument, and those of a goal come again wherever it is
embedded. -/
theorem verbatim_escaped_correspond (commands : List Command) :
    (requotedAnswers .verbatim commands).map Answer.mask =
      (requotedAnswers .escaped commands).map Answer.mask ∧
    (requotedReached .verbatim commands).handles = (requotedReached .escaped commands).handles ∧
    (requotedReached .verbatim commands).statements.length =
      (requotedReached .escaped commands).statements.length ∧
    (∀ (i : Nat) (verbatim escaped : Statement),
      (requotedReached .verbatim commands).statements[i]? = some verbatim →
      (requotedReached .escaped commands).statements[i]? = some escaped →
      Corresponds verbatim escaped) ∧
    ∀ (s : Statement) (e : Endpoint) (goal : Statement),
      (s.append (.endpoint e goal)).specials = s.specials + goal.specials := by
  rw [requotedAnswers_mask, requotedAnswers_mask, requotedReached_eq, requotedReached_eq]
  refine ⟨rfl, rfl, ?_, ?_, Statement.specials_append_endpoint⟩
  · simp [requote]
  · intro i verbatim escaped left right
    simp only [requote, List.getElem?_map, Option.map_eq_some_iff] at left right
    obtain ⟨s, shown, rfl⟩ := left
    obtain ⟨t, again, rfl⟩ := right
    rw [shown] at again
    cases again
    exact corresponds_requote s

end Session

end Gremlin
