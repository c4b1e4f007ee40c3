import Gremlin.Proofs.Session.Chronicle

/-!
# Embedded goals

A `to` or `from` step writes the text of its goal as it is at that moment, also if the goal
is an alias of the handle that is asked. The goal is written in its own configuration, and
since statements only grow at their end, the text stays where it was written.

Results:
1. `exec_endpoint`, `canEmbed_of_handle`: when such a step is carried out.
2. `extends_run`, `stays_run`: a statement of a session is a beginning of what later
   commands make of it, so what is written in it stays at its place.
3. `goal_embedded`: what the step writes, what it leaves alone, and that the goal's text
   stays in place.
4. `goal_name_taken`: the goal's handle is lost if the result is put under its name.
-/

namespace Gremlin

/-! ## Definitions -/

/-- What a step to an end of an edge writes before its goal. -/
def Endpoint.opening : Endpoint → String
  | target => ".to("
  | source => ".from("

/-- A longer statement in the same configuration. -/
def Statement.Extends (s longer : Statement) : Prop :=
  longer.config = s.config ∧ s.steps <+: longer.steps

namespace Session

/-- A handle on an edge, or on the element that was just added, can be asked to embed
another handle that yields vertices, or the element just added. -/
structure CanEmbed (s : Session) (h g : String) (handle : Handle) (statement : Statement)
    (held : Handle) (goal : Statement) : Prop where
  found : s.find? h = some (handle, statement)
  ends : handle.kind = .added ∨ handle.kind = .edge
  goalFound : s.find? g = some (held, goal)
  fits : held.kind = .vertex ∨ held.kind = .added
  other : g ≠ h

end Session

/-! ## The text of the step -/

namespace Statement

theorem fragment_endpoint (c : Config) (e : Endpoint) (goal : Statement) :
    fragment c (.endpoint e goal) = e.opening ++ goal.text ++ ")" := by
  cases e <;> rfl

theorem text_append_endpoint (s : Statement) (e : Endpoint) (goal : Statement) :
    (s.append (.endpoint e goal)).text = s.text ++ e.opening ++ goal.text ++ ")" := by
  rw [text_append, fragment_endpoint]
  simp only [String.append_assoc]

theorem Extends.refl (s : Statement) : s.Extends s := ⟨rfl, List.prefix_refl _⟩

theorem Extends.trans {s t u : Statement} (first : s.Extends t) (second : t.Extends u) :
    s.Extends u :=
  ⟨second.1.trans first.1, first.2.trans second.2⟩

theorem extends_append (s : Statement) (step : AppendedStep) : s.Extends (s.append step) :=
  ⟨rfl, List.prefix_append _ _⟩

/-- The text of a statement only grows at its end. -/
theorem Extends.text {s longer : Statement} (grown : s.Extends longer) :
    ∃ rest, longer.text = s.text ++ rest := by
  obtain ⟨config, more, steps⟩ := grown
  refine ⟨fragments s.config more, ?_⟩
  rw [text_eq, text_eq, config, ← steps, fragments_append, String.append_assoc]

end Statement

/-- What a text comes to that is embedded in itself. -/
theorem utf8ByteSize_doubled (text : String) (e : Endpoint) :
    (text ++ e.opening ++ text ++ ")").utf8ByteSize =
      2 * text.utf8ByteSize + (match e with | .target => 5 | .source => 7) := by
  have written : e.opening.utf8ByteSize + ")".utf8ByteSize =
      (match e with | .target => 5 | .source => 7) := by cases e <;> rfl
  rw [← written]
  simp only [String.utf8ByteSize_append]
  omega

/-- A text is found in front of another one, at the byte where it was put. -/
theorem extract_middle (before middle after : String) :
    (before ++ middle ++ after).toByteArray.extract before.utf8ByteSize
      (before.utf8ByteSize + middle.utf8ByteSize) = middle.toByteArray := by
  have front : (before.toByteArray ++ middle.toByteArray).extract before.utf8ByteSize
      (before.utf8ByteSize + middle.utf8ByteSize) = middle.toByteArray :=
    ByteArray.extract_append_eq_right rfl rfl
  have back : (before.toByteArray ++ middle.toByteArray).size =
      before.utf8ByteSize + middle.utf8ByteSize := ByteArray.size_append
  rw [String.toByteArray_append, String.toByteArray_append, ByteArray.extract_append, front, back]
  simp

theorem Kind.yieldsVertices_iff {k : Kind} :
    k.yieldsVertices = true ↔ k = .vertex ∨ k = .added := by
  cases k <;> simp [Kind.yieldsVertices]

theorem Kind.next?_endpoint_eq_some_iff {k l : Kind} {e : Endpoint} {goal : Statement} :
    k.next? (.endpoint e goal : AppendedStep) = some l ↔ (k = .added ∨ k = .edge) ∧ k = l := by
  cases k <;> simp [Kind.next?, Kind.stayIf]

namespace Session

/-! ## The step -/

/-- What can be given to a step as its goal. -/
theorem goal_eq_ok_iff {s : Session} {h g : String} {goal : Statement} :
    s.goal h g = .ok goal ↔
      g ≠ h ∧ ∃ held, s.find? g = some (held, goal) ∧ held.kind.yieldsVertices = true := by
  constructor
  · intro taken
    unfold Session.goal at taken
    split at taken
    · cases taken
    · next other =>
      split at taken
      · cases taken
      · next held shown found =>
        split at taken
        · next yields =>
          cases taken
          exact ⟨other, held, found, yields⟩
        · cases taken
  · rintro ⟨other, held, found, yields⟩
    simp [Session.goal, other, found, yields]

theorem exec_endpoint {s : Session} {h g : String} {handle held : Handle}
    {statement goal : Statement} (can : CanEmbed s h g handle statement held goal) (into : String)
    (e : Endpoint) :
    s.exec (.step h into (.endpoint e g)) =
      s.append h into handle statement handle.kind (.endpoint e goal) := by
  have taken : s.goal h g = .ok goal :=
    goal_eq_ok_iff.2 ⟨can.other, held, can.goalFound, Kind.yieldsVertices_iff.2 can.fits⟩
  have follows : handle.kind.next? (.endpoint e goal : AppendedStep) = some handle.kind :=
    Kind.next?_endpoint_eq_some_iff.2 ⟨can.ends, rfl⟩
  simp [exec, step, can.found, resolve, taken, Except.map, follows, Step.fault?]

theorem canEmbed_of_handle {s : Session} {h into g : String} {e : Endpoint} {kind : Kind}
    {text : String} (answered : (s.exec (.step h into (.endpoint e g))).1 = .handle kind text) :
    ∃ handle statement held goal, CanEmbed s h g handle statement held goal := by
  have t := transition s (.step h into (.endpoint e g))
  rw [answered] at t
  generalize s.event? _ = event at t
  generalize (s.exec _).2 = next at t
  cases t with
  | observed looks => cases looks
  | started opens => cases opens
  | @appended _ _ _ handle statement made kind found resolved grammatical _ =>
    simp only [resolve] at resolved
    obtain ⟨goal, taken, rfl⟩ := Json.map_eq_ok.1 resolved
    obtain ⟨other, held, goalFound, yields⟩ := goal_eq_ok_iff.1 taken
    exact ⟨handle, statement, held, goal, found, (Kind.next?_endpoint_eq_some_iff.1 grammatical).1,
      goalFound, Kind.yieldsVertices_iff.1 yields, other⟩

/-- An alias is embedded as the statement is before the step. -/
theorem CanEmbed.eq_of_alias {s : Session} {h g : String} {handle held : Handle}
    {statement goal : Statement} (can : CanEmbed s h g handle statement held goal)
    (aliased : held.statement = handle.statement) : goal = statement := by
  have shown := (find?_eq_some_iff.1 can.found).2
  rw [← aliased, (find?_eq_some_iff.1 can.goalFound).2] at shown
  exact Option.some.inj shown

/-! ## Statements grow -/

theorem extends_transition {s next : Session} {c : Command} {a : Answer} {e : Option Event}
    (t : Transition s c a e next) {i : Nat} {statement : Statement}
    (shown : s.statements[i]? = some statement) :
    ∃ longer, next.statements[i]? = some longer ∧ statement.Extends longer := by
  cases t with
  | started _ =>
    have old : i < s.statements.length := (List.getElem?_eq_some_iff.1 shown).1
    exact ⟨statement, (List.getElem?_append_left old).trans shown, .refl _⟩
  | @appended _ _ _ handle before step _ found _ _ _ =>
    rw [statements_append, getElem?_set_of_find? found]
    by_cases same : handle.statement = i
    · rw [← same, (find?_eq_some_iff.1 found).2] at shown
      cases shown
      exact ⟨_, if_pos same, Statement.extends_append _ _⟩
    · exact ⟨statement, (if_neg same).trans shown, .refl _⟩
  | _ => exact ⟨statement, shown, .refl _⟩

/-- A statement of a session is a beginning of what later commands make of it. -/
theorem extends_run {s : Session} (later : List Command) {i : Nat} {statement : Statement}
    (shown : s.statements[i]? = some statement) :
    ∃ longer, (s.run later).2.statements[i]? = some longer ∧ statement.Extends longer := by
  induction later generalizing s statement with
  | nil => exact ⟨statement, shown, .refl _⟩
  | cons c rest ih =>
    obtain ⟨next, shownNext, grows⟩ := extends_transition (transition s c) shown
    obtain ⟨longer, shownLater, growsLater⟩ := ih shownNext
    exact ⟨longer, shownLater, grows.trans growsLater⟩

/-- What is written in a statement is found at the same byte whatever is asked later. -/
theorem stays_run {s : Session} {i : Nat} {statement : Statement}
    (shown : s.statements[i]? = some statement) {before middle after : String}
    (text : statement.text = before ++ middle ++ after) (later : List Command) :
    ∃ whole rest, (s.run later).2.statements[i]? = some whole ∧
      whole.text = before ++ middle ++ after ++ rest ∧
      whole.text.toByteArray.extract before.utf8ByteSize
        (before.utf8ByteSize + middle.utf8ByteSize) = middle.toByteArray := by
  obtain ⟨whole, shownLater, grows⟩ := extends_run later shown
  obtain ⟨rest, longer⟩ := grows.text
  rw [text] at longer
  refine ⟨whole, rest, shownLater, longer, ?_⟩
  rw [longer, String.append_assoc]
  exact extract_middle _ _ _

/-! ## Embedding -/

/-- A `to` or `from` step is carried out exactly if a handle on an edge or an added element
is given another handle that yields vertices or an added element. It writes the text that
the goal has at that moment, in the goal's own configuration; if the goal is an alias, this
is the text of the statement itself. The goal keeps its handle, unless the result is put
under its name, and its statement, unless it is an alias. Whatever is asked later, the
goal's text stays where it was written. -/
theorem goal_embedded (commands : List Command) (h into g : String) (e : Endpoint) :
    ((∃ kind text, ((reached commands).exec (.step h into (.endpoint e g))).1 =
        .handle kind text) ↔
      ∃ handle statement held goal,
        CanEmbed (reached commands) h g handle statement held goal) ∧
    ∀ handle statement held goal, CanEmbed (reached commands) h g handle statement held goal →
      ((reached commands).exec (.step h into (.endpoint e g))).1 =
        .handle handle.kind (statement.text ++ e.opening ++ goal.text ++ ")") ∧
      (∃ longer, (reached (commands ++ [.step h into (.endpoint e g)])).find? into =
          some (handle, longer) ∧
        longer.text = statement.text ++ e.opening ++ goal.text ++ ")" ∧
        longer.config = statement.config) ∧
      goal.text = goal.config.source ++
        String.join (goal.steps.map (Statement.fragment goal.config)) ∧
      (held.statement = handle.statement → goal.text = statement.text ∧
        (statement.text ++ e.opening ++ goal.text ++ ")").utf8ByteSize =
          2 * statement.text.utf8ByteSize + (match e with | .target => 5 | .source => 7)) ∧
      (into ≠ g → ∃ after,
        (reached (commands ++ [.step h into (.endpoint e g)])).find? g = some (held, after) ∧
        (held.statement ≠ handle.statement → after = goal)) ∧
      ∀ later, ∃ whole rest,
        (reached (commands ++ .step h into (.endpoint e g) :: later)).statements[
          handle.statement]? = some whole ∧
        whole.text = statement.text ++ e.opening ++ goal.text ++ ")" ++ rest ∧
        whole.text.toByteArray.extract (statement.text ++ e.opening).utf8ByteSize
          ((statement.text ++ e.opening).utf8ByteSize + goal.text.utf8ByteSize) =
            goal.text.toByteArray := by
  refine ⟨⟨fun ⟨_, _, answered⟩ => canEmbed_of_handle answered, ?_⟩, ?_⟩
  · rintro ⟨handle, statement, held, goal, can⟩
    exact ⟨_, _, congrArg Prod.fst (exec_endpoint can into e)⟩
  · intro handle statement held goal can
    have grown := Statement.text_append_endpoint statement e goal
    have carried := exec_endpoint can into e
    have after : reached (commands ++ [.step h into (.endpoint e g)]) =
        ((reached commands).append h into handle statement handle.kind (.endpoint e goal)).2 := by
      rw [reached_snoc, carried]
    refine ⟨?_, ?_, ?_, fun aliased => ?_, fun elsewhere => ?_, fun later => ?_⟩
    · rw [carried, ← grown]
      rfl
    · refine ⟨statement.append (.endpoint e goal), ?_, grown, rfl⟩
      rw [after, find?_append can.found, if_pos rfl]
    · rw [← Statement.fragments_eq_join]
      exact Statement.text_eq goal
    · rw [can.eq_of_alias aliased]
      exact ⟨rfl, utf8ByteSize_doubled _ e⟩
    · rw [after, find?_append can.found, if_neg elsewhere, if_neg (Ne.symm can.other),
        can.goalFound]
      exact ⟨_, rfl, fun apart => if_neg (Ne.symm apart)⟩
    · have shownAfter : (reached (commands ++ [.step h into (.endpoint e g)])).statements[
          handle.statement]? = some (statement.append (.endpoint e goal)) := by
        rw [after, statements_append, getElem?_set_of_find? can.found, if_pos rfl]
      rw [List.append_cons, reached_append]
      exact stays_run shownAfter grown later

/-- An edge with an alias, and a vertex in a configuration of its own. -/
def edgeRun : List Command :=
  [.new "q", .step "q" "q" (.add .edge none), .clone "q" "a",
    .withConfig "p" ⟨"h", .escaped, true⟩, .step "p" "p" (.start .vertex (some (.string "'")))]

/-- The alias is embedded as it was before the step, and stays where it was written. -/
theorem goal_embedded_alias :
    CanEmbed (reached edgeRun) "q" "a" ⟨0, .added⟩ ⟨{}, [.add .edge none]⟩ ⟨0, .added⟩
      ⟨{}, [.add .edge none]⟩ ∧
    ((reached edgeRun).exec (.step "q" "q" (.endpoint .source "a"))).1 =
      .handle .added "g.addE().from(g.addE())" ∧
    "g.addE().from(g.addE())".utf8ByteSize = 2 * "g.addE()".utf8ByteSize + 7 ∧
    ∀ later, ∃ whole rest,
      (reached (edgeRun ++ .step "q" "q" (.endpoint .source "a") :: later)).statements[0]? =
        some whole ∧ whole.text = "g.addE().from(g.addE())" ++ rest := by
  have can : CanEmbed (reached edgeRun) "q" "a" ⟨0, .added⟩ ⟨{}, [.add .edge none]⟩ ⟨0, .added⟩
      ⟨{}, [.add .edge none]⟩ := ⟨rfl, .inl rfl, rfl, .inr rfl, by decide⟩
  have text : Statement.text ⟨{}, [.add .edge none]⟩ = "g.addE()" := by decide +kernel
  obtain ⟨answer, _, _, doubled, _, stays⟩ :=
    (goal_embedded edgeRun "q" "q" "a" .source).2 _ _ _ _ can
  rw [text] at answer doubled
  refine ⟨can, answer, (doubled rfl).2, fun later => ?_⟩
  obtain ⟨whole, rest, shown, written, _⟩ := stays later
  rw [text] at written
  exact ⟨whole, rest, shown, written⟩

/-- If the result is put under the name of the goal, the name does not stand for the goal
any longer: it has the kind and the text of the result. -/
theorem goal_name_taken :
    ((reached edgeRun).exec (.view "p")).1 = .handle .vertex "h.V('\\'')" ∧
    ((reached edgeRun).exec (.step "q" "p" (.endpoint .target "p"))).1 =
      .handle .added "g.addE().to(h.V('\\''))" ∧
    ((reached (edgeRun ++ [.step "q" "p" (.endpoint .target "p")])).exec (.view "p")).1 =
      .handle .added "g.addE().to(h.V('\\''))" := by
  decide +kernel

end Session

end Gremlin
