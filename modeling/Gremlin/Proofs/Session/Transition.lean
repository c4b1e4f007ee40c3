import Gremlin.Session

/-!
# Transitions of a session

Everything that one command can do to a session, as one relation. A proof about all
runs shows what each kind of transition keeps and never looks into the commands again.

Results:
1. `find?_eq_some_iff`: what it takes for a name to show a statement.
2. `transition`: every command makes one of the transitions.
-/

namespace Gremlin

/-! ## Definitions -/

/-- The name under which a command starts a statement, and the configuration. -/
def Command.opening? : Command → Option (String × Except Error Config)
  | .new into => some (into, .ok {})
  | .withConfig into c => some (into, c.validate)
  | .withJson into json => some (into, Config.load json)
  | _ => none

/-- A step that was carried out. -/
structure Event where
  /-- The statement that grew, by its place in the order of creation. -/
  statement : Nat
  /-- What the handle that was asked yielded before the step. -/
  kind : Kind
  /-- The step with its arguments made. -/
  step : AppendedStep
  /-- What the step wrote. -/
  fragment : String

namespace Session

/-- The step that a command carries out, if it asks for one and is answered with a
handle. -/
def event? (s : Session) (c : Command) : Option Event :=
  match c, (s.exec c).1 with
  | .step h _ asked, .handle _ _ =>
    match s.find? h, s.resolve h asked with
    | some (handle, statement), .ok step =>
      some ⟨handle.statement, handle.kind, step, Statement.fragment statement.config step⟩
    | _, _ => none
  | _, _ => none

/-- What a command does to a session: `Transition s c answer event next`. -/
inductive Transition (s : Session) : Command → Answer → Option Event → Session → Prop
  /-- The command only looks. -/
  | observed {c : Command} {a : Answer} (looks : isObservation c = true) :
      Transition s c a none s
  /-- The command is refused and changes nothing. -/
  | refused {c : Command} {r : Refusal} : Transition s c (.refused r) none s
  /-- A statement is started. -/
  | started {c : Command} {into : String} {config : Config}
      (opens : c.opening? = some (into, .ok config)) :
      Transition s c (.handle .root config.source) none (s.start into config).2
  /-- A handle is dropped. -/
  | forgotten {h : String} :
      Transition s (.forget h) (.forgotten h) none { s with handles := s.handles.erase h }
  /-- A second handle is put on a statement that has steps. -/
  | cloned {h into : String} {handle : Handle} {statement : Statement}
      (found : s.find? h = some (handle, statement)) (chained : handle.kind ≠ .root) :
      Transition s (.clone h into) (.handle handle.kind statement.text) none
        { s with handles := s.handles.set into handle }
  /-- A step that picks no items uses up its handle. -/
  | spent {h into : String} {handle : Handle} {statement : Statement} {p : Projection}
      (found : s.find? h = some (handle, statement)) :
      Transition s (.step h into (.project p [])) (.refused (.failed (.emptyArgumentList p.name)))
        none { s with handles := s.handles.erase h }
  /-- A step is appended. -/
  | appended {h into : String} {asked : AskedStep} {handle : Handle} {statement : Statement}
      {step : AppendedStep} {kind : Kind} (found : s.find? h = some (handle, statement))
      (resolved : s.resolve h asked = .ok step) (grammatical : handle.kind.next? step = some kind)
      (sound : step.fault? = none) :
      Transition s (.step h into asked) (.handle kind (statement.append step).text)
        (some ⟨handle.statement, handle.kind, step, Statement.fragment statement.config step⟩)
        (s.append h into handle statement kind step).2

/-! ## The session after a change -/

@[simp] theorem statements_start (s : Session) (into : String) (c : Config) :
    (s.start into c).2.statements = s.statements ++ [Statement.ofConfig c] := rfl

@[simp] theorem statements_append (s : Session) (h into : String) (handle : Handle)
    (statement : Statement) (kind : Kind) (step : AppendedStep) :
    (s.append h into handle statement kind step).2.statements =
      s.statements.set handle.statement (statement.append step) := rfl

theorem get?_start (s : Session) (into name : String) (c : Config) :
    (s.start into c).2.handles.get? name =
      if into = name then some ⟨s.statements.length, .root⟩ else s.handles.get? name :=
  Bindings.get?_set _ _ _ _

theorem get?_append (s : Session) (h into name : String) (handle : Handle) (statement : Statement)
    (kind : Kind) (step : AppendedStep) :
    (s.append h into handle statement kind step).2.handles.get? name =
      if into = name then some ⟨handle.statement, kind⟩
      else if h = name then none else s.handles.get? name := by
  rw [← Bindings.get?_erase]
  exact Bindings.get?_set _ _ _ _

/-! ## Looking up handles -/

theorem find?_eq_some_iff {s : Session} {name : String} {handle : Handle} {statement : Statement} :
    s.find? name = some (handle, statement) ↔
      s.handles.get? name = some handle ∧ s.statements[handle.statement]? = some statement := by
  unfold find?
  cases s.handles.get? name with
  | none => simp
  | some held =>
    simp only [Option.bind_eq_bind, Option.bind_some, Option.some.injEq]
    constructor
    · intro h
      obtain ⟨shown, hs, ht⟩ := Option.bind_eq_some_iff.1 h
      cases ht
      exact ⟨rfl, hs⟩
    · rintro ⟨rfl, hs⟩
      rw [hs]
      rfl

theorem statement_lt_of_find? {s : Session} {name : String} {handle : Handle}
    {statement : Statement} (found : s.find? name = some (handle, statement)) :
    handle.statement < s.statements.length :=
  (List.getElem?_eq_some_iff.1 (find?_eq_some_iff.1 found).2).1

/-- The statement of a handle whose statement grows. -/
theorem getElem?_set_of_find? {s : Session} {name : String} {handle : Handle}
    {statement : Statement} (found : s.find? name = some (handle, statement)) (longer : Statement)
    (i : Nat) :
    (s.statements.set handle.statement longer)[i]? =
      if handle.statement = i then some longer else s.statements[i]? := by
  rw [List.getElem?_set]
  simp [statement_lt_of_find? found]

/-- What names show after a statement is started, if all handles before show a statement. -/
theorem find?_start {s : Session} {name : String}
    (live : ∀ {handle : Handle}, s.handles.get? name = some handle →
      handle.statement < s.statements.length) (into : String) (c : Config) :
    (s.start into c).2.find? name =
      if into = name then some (⟨s.statements.length, .root⟩, .ofConfig c) else s.find? name := by
  unfold find?
  rw [get?_start, statements_start]
  split
  · simp
  · cases bound : s.handles.get? name with
    | none => rfl
    | some handle =>
      simp only [Option.bind_eq_bind, Option.bind_some]
      rw [List.getElem?_append_left (live bound)]

theorem find?_erase (s : Session) (h name : String) :
    ({ s with handles := s.handles.erase h } : Session).find? name =
      if h = name then none else s.find? name := by
  unfold find?
  dsimp only
  rw [Bindings.get?_erase]
  split <;> rfl

theorem find?_set {s : Session} {handle : Handle} {statement : Statement}
    (shown : s.statements[handle.statement]? = some statement) (into name : String) :
    ({ s with handles := s.handles.set into handle } : Session).find? name =
      if into = name then some (handle, statement) else s.find? name := by
  unfold find?
  dsimp only
  rw [Bindings.get?_set]
  split
  · rw [Option.bind_eq_bind, Option.bind_some, shown]
    rfl
  · rfl

/-- What names show after a step. A handle on the statement that grew shows more of it. -/
theorem find?_append {s : Session} {h : String} {handle : Handle} {statement : Statement}
    (found : s.find? h = some (handle, statement)) (into name : String) (kind : Kind)
    (step : AppendedStep) :
    (s.append h into handle statement kind step).2.find? name =
      if into = name then some (⟨handle.statement, kind⟩, statement.append step)
      else if h = name then none
      else (s.find? name).map fun (held, shown) =>
        (held, if handle.statement = held.statement then statement.append step else shown) := by
  unfold find?
  rw [get?_append, statements_append]
  split
  · rw [Option.bind_eq_bind, Option.bind_some, getElem?_set_of_find? found, if_pos rfl]
    rfl
  · split
    · rfl
    · cases s.handles.get? name with
      | none => rfl
      | some held =>
        simp only [Option.bind_eq_bind, Option.bind_some, getElem?_set_of_find? found]
        by_cases same : handle.statement = held.statement
        · simp [← same, (find?_eq_some_iff.1 found).2]
        · cases s.statements[held.statement]? <;> simp [same]

/-! ## Classification of commands -/

theorem fault?_eq_some_iff {γ υ : Type} {step : Step γ υ} {e : Error} :
    step.fault? = some e ↔ ∃ p, step = .project p [] ∧ e = .emptyArgumentList p.name := by
  cases step with
  | project p items => cases items <;> simp [Step.fault?, eq_comm]
  | _ => simp [Step.fault?]

/-- Only a step that picks items becomes one. -/
theorem eq_project_of_resolve {s : Session} {h : String} {asked : AskedStep} {p : Projection}
    {items : List String} (resolved : s.resolve h asked = .ok (.project p items)) :
    asked = .project p items := by
  cases asked with
  | has name value =>
    simp only [resolve] at resolved
    cases hv : value.build.mapError Refusal.failed <;> rw [hv] at resolved <;> cases resolved
  | endpoint e name =>
    simp only [resolve] at resolved
    cases hg : s.goal h name <;> rw [hg] at resolved <;> cases resolved
  | project p items => cases resolved; rfl
  | _ => cases resolved

theorem transition_step (s : Session) (h into : String) (asked : AskedStep) :
    Transition s (.step h into asked) (s.step h into asked).1 (s.event? (.step h into asked))
      (s.step h into asked).2 := by
  unfold event? exec
  dsimp only
  cases found : s.find? h with
  | none =>
    simp only [step, found]
    exact .refused
  | some pair =>
    obtain ⟨handle, statement⟩ := pair
    cases resolved : s.resolve h asked with
    | error r =>
      simp only [step, found, resolved]
      exact .refused
    | ok made =>
      cases grammatical : handle.kind.next? made with
      | none =>
        simp only [step, found, resolved, grammatical]
        exact .refused
      | some kind =>
        cases sound : made.fault? with
        | none =>
          have made : Transition s (.step h into asked) _ _ _ :=
            .appended found resolved grammatical sound
          simpa only [step, found, resolved, grammatical, sound, append] using made
        | some e =>
          simp only [step, found, resolved, grammatical, sound]
          obtain ⟨p, rfl, rfl⟩ := fault?_eq_some_iff.1 sound
          rw [eq_project_of_resolve resolved]
          exact .spent found

theorem transition_start? {s : Session} {c : Command} {into : String} {r : Except Error Config}
    (opens : c.opening? = some (into, r)) :
    Transition s c (s.start? into r).1 none (s.start? into r).2 := by
  cases r with
  | error e => exact .refused
  | ok config =>
    have started := Transition.started (s := s) opens
    rwa [← Statement.text_ofConfig config] at started

/-- Every command makes one of the transitions. -/
theorem transition (s : Session) (c : Command) :
    Transition s c (s.exec c).1 (s.event? c) (s.exec c).2 := by
  cases c with
  | new into => exact transition_start? (r := .ok {}) rfl
  | withConfig into config => exact transition_start? rfl
  | withJson into json => exact transition_start? rfl
  | view h | size h | config h | inspect h | same h other => exact .observed rfl
  | forget h =>
    simp only [event?, exec]
    cases s.find? h with
    | none => exact .refused
    | some _ => exact .forgotten
  | clone h into =>
    simp only [event?, exec, clone]
    cases found : s.find? h with
    | none => exact .refused
    | some pair =>
      obtain ⟨handle, statement⟩ := pair
      dsimp only
      split
      · next chained => exact .cloned found (by simpa [Kind.isChained] using chained)
      · exact .refused
  | step h into asked => exact transition_step s h into asked

end Session

end Gremlin
