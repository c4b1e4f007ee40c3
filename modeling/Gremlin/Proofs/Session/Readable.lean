import Gremlin.Proofs.Reading.RoundTrip
import Gremlin.Proofs.Session.Chronicle

/-!
# Texts of a session are read back

While no command writes a text of its own without quotes, every statement with escaped
literals stays readable: a step is readable if what it was asked with is, and the goal of
a step was a statement of the session.

Results:
1. `readable_run`: the statements of such a run are readable.
2. `decode_reached`: the text of a handle gives back the steps that were carried out.
-/

namespace Gremlin

/-! ## Definitions -/

/-- The tokens that have a name. -/
def Token.named : List Token := [id, label, key, value, keys, values]

/-- Whether a step is asked for with a text of the caller's own that is written without
quotes. -/
def Step.isRaw : AskedStep → Bool
  | .has _ (.predicate (.raw _)) => true
  | .modulate (.token t) => t ∉ Token.named
  | _ => false

/-- Whether a command asks for such a step. -/
def Command.isRaw : Command → Bool
  | .step _ _ asked => Step.isRaw asked
  | _ => false

namespace Session

/-- All statements of a session have escaped literals. -/
def Escaped (s : Session) : Prop :=
  ∀ statement ∈ s.statements, statement.config.quoting = .escaped

instance (s : Session) : Decidable s.Escaped :=
  inferInstanceAs (Decidable (∀ statement ∈ s.statements, statement.config.quoting = .escaped))

/-! ## Steps -/

theorem isWord_of_mem_named {t : Token} (named : t ∈ Token.named) : IsWord t.text.toList := by
  simp only [Token.named, List.mem_cons, List.not_mem_nil, or_false] at named
  rcases named with rfl | rfl | rfl | rfl | rfl | rfl <;> decide

theorem isWord_of_build {r : Comparer.Request} {name : String} {args : List Value}
    (made : r.build = .ok (.call name args)) : IsWord name.toList := by
  cases r with
  | raw text => cases made
  | compare c value =>
    cases made
    cases c <;> decide
  | range r low high =>
    cases made
    cases r <;> decide
  | member m values =>
    cases values with
    | nil => cases made
    | cons value values =>
      cases made
      cases m <;> decide

/-- Only a request for a text of the caller's own becomes one. -/
theorem eq_raw_of_build {r : Comparer.Request} {text : String}
    (made : r.build = .ok (.raw text)) : r = .raw text := by
  cases r with
  | raw text => cases made; rfl
  | member m values => cases values <;> cases made
  | _ => cases made

/-- The arguments of a step that is not raw are readable. -/
theorem readable_of_resolve {s : Session} {h : String} {asked : AskedStep} {step : AppendedStep}
    (notRaw : Step.isRaw asked = false) (resolved : s.resolve h asked = .ok step) :
    Step.Readable step := by
  cases asked with
  | has name value =>
    simp only [resolve] at resolved
    cases value with
    | literal text =>
      cases resolved
      trivial
    | predicate r =>
      cases made : r.build with
      | error e => simp [HasValue.Request.build, made, Except.map, Except.mapError] at resolved
      | ok p =>
        simp only [HasValue.Request.build, made, Except.map, Except.mapError,
          Except.ok.injEq] at resolved
        subst resolved
        cases p with
        | raw text =>
          rw [eq_raw_of_build made] at notRaw
          cases notRaw
        | call word args => exact isWord_of_build made
  | modulate key =>
    cases resolved
    cases key with
    | field name => trivial
    | token t => exact isWord_of_mem_named (by simpa [Step.isRaw] using notRaw)
  | endpoint e name =>
    simp only [resolve] at resolved
    cases found : s.goal h name with
    | error r => simp [found, Except.map] at resolved
    | ok goal =>
      simp only [found, Except.map, Except.ok.injEq] at resolved
      subst resolved
      trivial
  | _ =>
    cases resolved
    trivial

/-- The goal of a step is a statement of the session. -/
theorem mem_of_resolve {s : Session} {h : String} {asked : AskedStep} {e : Endpoint}
    {goal : Statement} (resolved : s.resolve h asked = .ok (.endpoint e goal)) :
    goal ∈ s.statements := by
  cases asked with
  | endpoint e' name =>
    simp only [resolve] at resolved
    cases taken : s.goal h name with
    | error r => simp [taken, Except.map] at resolved
    | ok goal' =>
      simp only [taken, Except.map, Except.ok.injEq, Step.endpoint.injEq] at resolved
      obtain ⟨-, rfl⟩ := resolved
      unfold Session.goal at taken
      split at taken
      · cases taken
      · split at taken
        · cases taken
        · next found =>
          split at taken
          · cases taken
            exact List.mem_of_getElem? (find?_eq_some_iff.1 found).2
          · cases taken
  | has name value =>
    simp only [resolve] at resolved
    cases made : value.build.mapError Refusal.failed <;> rw [made] at resolved <;> cases resolved
  | _ => cases resolved

/-! ## Runs -/

theorem isIdentifier_of_opening {c : Command} {into : String} {config : Config}
    (opens : c.opening? = some (into, .ok config)) :
    Config.isIdentifier config.source.toList = true := by
  cases c with
  | new name => cases opens; decide
  | withConfig name asked =>
    have valid := (Prod.mk.inj (Option.some.inj opens)).2
    exact (Config.validate_eq_ok_iff.1 valid).2 ▸ (Config.validate_eq_ok_iff.1 valid).1
  | withJson name json =>
    have valid := Config.validate_of_load (Prod.mk.inj (Option.some.inj opens)).2
    exact (Config.validate_eq_ok_iff.1 valid).1
  | _ => cases opens

theorem readable_append {s : Session} {h : String} {asked : AskedStep} {step : AppendedStep}
    {statement : Statement} (notRaw : Step.isRaw asked = false)
    (resolved : s.resolve h asked = .ok step) (readable : ∀ t ∈ s.statements, t.Readable)
    (member : statement ∈ s.statements) : (statement.append step).Readable := by
  obtain ⟨escaped, identifier, steps, goals⟩ := readable statement member
  refine ⟨escaped, identifier, fun other inside => ?_, fun e goal inside => ?_⟩
  · rcases List.mem_append.1 inside with before | now
    · exact steps other before
    · rw [List.mem_singleton.1 now]
      exact readable_of_resolve notRaw resolved
  · rcases List.mem_append.1 inside with before | now
    · exact goals e goal before
    · rw [← List.mem_singleton.1 now] at resolved
      exact readable goal (mem_of_resolve resolved)

/-- A transition that is not raw keeps the statements readable. -/
theorem readable_transition {s next : Session} {c : Command} {a : Answer} {e : Option Event}
    (t : Transition s c a e next) (notRaw : c.isRaw = false)
    (readable : s.Escaped → ∀ statement ∈ s.statements, statement.Readable)
    (escaped : next.Escaped) : ∀ statement ∈ next.statements, statement.Readable := by
  cases t with
  | observed _ | refused | forgotten | cloned _ _ | spent _ => exact readable escaped
  | started opens =>
    have before : s.Escaped := fun statement member =>
      escaped statement (List.mem_append_left _ member)
    intro statement member
    rcases List.mem_append.1 member with old | new
    · exact readable before statement old
    · have plain := escaped statement member
      rw [List.mem_singleton.1 new] at plain ⊢
      exact ⟨plain, isIdentifier_of_opening opens, by simp [Statement.ofConfig],
        by simp [Statement.ofConfig]⟩
  | @appended _ _ _ handle statement step _ found resolved _ _ =>
    have shown := (find?_eq_some_iff.1 found).2
    have inside := List.mem_of_getElem? shown
    -- A step changes no configuration, so the literals were escaped before it.
    have before : s.Escaped := by
      intro other member
      obtain ⟨i, at_i⟩ := List.mem_iff_getElem?.1 member
      have after := getElem?_set_of_find? found (statement.append step) i
      by_cases same : handle.statement = i
      · rw [if_pos same] at after
        rw [← same, shown] at at_i
        cases at_i
        exact escaped (statement.append step) (List.mem_of_getElem? after)
      · rw [if_neg same, at_i] at after
        exact escaped _ (List.mem_of_getElem? after)
    intro other member
    rcases List.mem_or_eq_of_mem_set member with old | rfl
    · exact readable before other old
    · exact readable_append notRaw resolved (readable before) inside

/-- The statements of a run without raw commands are readable. -/
theorem readable_run {commands : List Command} (noRaw : ∀ c ∈ commands, c.isRaw = false)
    (escaped : (reached commands).Escaped) :
    ∀ statement ∈ (reached commands).statements, statement.Readable := by
  refine run_invariant (P := fun s _ => s.Escaped → ∀ statement ∈ s.statements, statement.Readable)
    (fun c => c.isRaw = false) (fun notRaw t readable => readable_transition t notRaw readable)
    noRaw ?_ escaped
  intro _ statement member
  cases member

/-- The text of a handle can be read in one way only: it gives back the source and exactly
the steps that were carried out on the statement, through whichever handle, each with its
arguments and with the readings of its goals. Of the values in them all is kept, except that
an integer and a double with the same numeral are alike, and so are all doubles that are not
a number. -/
theorem decode_reached {commands : List Command} (noRaw : ∀ c ∈ commands, c.isRaw = false)
    (escaped : (reached commands).Escaped) {name : String} {handle : Handle}
    {statement : Statement} (found : (reached commands).find? name = some (handle, statement)) :
    decode statement.text = some ⟨statement.config.source,
      (eventsOn handle.statement (chronicle commands).events).map fun e =>
        Statement.stepReading e.step⟩ ∧
    ∀ v w : Value, v.canonical = w.canonical ↔ v.Alike w := by
  have shown := (find?_eq_some_iff.1 found).2
  have readable := readable_run noRaw escaped statement (List.mem_of_getElem? shown)
  refine ⟨?_, fun v w => Value.canonical_eq_iff⟩
  rw [Statement.decode_text readable, Statement.reading_eq, (logged_run commands).steps _ _ shown,
    List.map_map]
  rfl

/-- A statement on a source that ends like an edge step, with another one as its goal, whose
literals look like steps. -/
def nestedRun : List Command :=
  [.withConfig "goal" ⟨"gE", .escaped, true⟩,
    .step "goal" "goal" (.start .vertex (some (.string "it's).V('"))),
    .step "goal" "goal" (.mark "\\"),
    .withConfig "q" ⟨"gE", .escaped, false⟩,
    .step "q" "q" (.start .edge none),
    .step "q" "q" (.endpoint .target "goal"),
    .step "q" "q" (.property "n" (.double (.ofInt 5)))]

/-- The goal is told apart from the statement around it, and the double is read as an
integer. -/
theorem decode_nestedRun :
    ∃ handle statement, (reached nestedRun).find? "q" = some (handle, statement) ∧
      statement.text =
        "gEE().to(gE.V('it\\'s).V(\\'').as('\\\\')).property('n',5)" ∧
      decode statement.text = some ⟨"gE", [.start .edge none,
        .endpoint .target ⟨"gE", [.start .vertex (some (.string "it's).V('")), .mark "\\"]⟩,
        .property "n" (.integer 5)]⟩ := by
  have found : (reached nestedRun).find? "q" = some (⟨1, .edge⟩,
      ⟨⟨"gE", .escaped, false⟩, [.start .edge none,
        .endpoint .target ⟨⟨"gE", .escaped, true⟩,
          [.start .vertex (some (.string "it's).V('")), .mark "\\"]⟩,
        .property "n" (.double (.ofInt 5))]⟩) := rfl
  have whole : Value.canonical (.double (.ofInt 5)) = .integer 5 := by decide +kernel
  have read := (decode_reached (by decide) (by decide +kernel) found).1
  refine ⟨_, _, found, by decide +kernel, read.trans ?_⟩
  rw [← whole]
  rfl

end Session

end Gremlin
