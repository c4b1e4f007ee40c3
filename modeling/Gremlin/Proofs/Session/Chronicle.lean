import Gremlin.Proofs.Session.Transition
import Mathlib.Logic.Function.Basic

/-!
# Chronicles

What is remembered about a run besides its last state: every step that was carried
out, in order, and for every handle the steps that lie behind it. A session does not
keep any of this; a chronicle is written beside the run, from the answers. The
transcript of a run is plainer still: the commands, each with its answer.

Results:
1. `run_invariant`: what every transition keeps holds after every run.
2. `logged_run`: the steps of a statement are the steps of the chronicle that were
   carried out on it.
3. `text_eq_log`: texts only grow at their end, by one fragment for each step that is
   carried out, and nothing else grows with them.
-/

namespace Gremlin

/-! ## Definitions -/

/-- The events on one statement. -/
def eventsOn (i : Nat) (events : List Event) : List Event :=
  events.filter (·.statement == i)

/-- What is remembered about a run. -/
structure Chronicle where
  /-- All steps that were carried out, oldest first. -/
  events : List Event := []
  /-- The steps that lie behind each handle, oldest first: those through the handles
  that were used up on the way to it, and those behind the handle that was cloned. -/
  lineage : String → List Event := fun _ => []

/-- The lineages after a command. A new handle has nothing behind it. -/
def lineageAfter (lineage : String → List Event) :
    Command → Answer → Option Event → String → List Event
  | .new into, .handle _ _, _ => Function.update lineage into []
  | .withConfig into _, .handle _ _, _ => Function.update lineage into []
  | .withJson into _, .handle _ _, _ => Function.update lineage into []
  | .clone h into, .handle _ _, _ => Function.update lineage into (lineage h)
  | .step h into _, _, some e => Function.update lineage into (lineage h ++ [e])
  | _, _, _ => lineage

/-- The chronicle after a command. -/
def Chronicle.record (g : Chronicle) (c : Command) (a : Answer) (e : Option Event) : Chronicle :=
  ⟨g.events ++ e.toList, lineageAfter g.lineage c a e⟩

namespace Session

/-- The chronicle after commands, from a session and the chronicle up to it. -/
def chronicleFrom (s : Session) (g : Chronicle) : List Command → Chronicle
  | [] => g
  | c :: rest => (s.exec c).2.chronicleFrom (g.record c (s.exec c).1 (s.event? c)) rest

/-- The session that commands lead to from the beginning. -/
def reached (commands : List Command) : Session := (run {} commands).2

/-- The chronicle of a run from the beginning. -/
def chronicle (commands : List Command) : Chronicle := chronicleFrom {} {} commands

/-- The commands of a run, each with its answer. -/
def transcriptFrom (s : Session) (commands : List Command) : List (Command × Answer) :=
  commands.zip (s.run commands).1

/-- The transcript of a run from the beginning. -/
def transcript (commands : List Command) : List (Command × Answer) :=
  transcriptFrom {} commands

/-! ## Runs -/

theorem run_append (s : Session) (front back : List Command) :
    (s.run (front ++ back)).2 = ((s.run front).2.run back).2 := by
  induction front generalizing s with
  | nil => rfl
  | cons c rest ih => exact ih (s.exec c).2

theorem chronicleFrom_append (s : Session) (g : Chronicle) (front back : List Command) :
    s.chronicleFrom g (front ++ back) =
      (s.run front).2.chronicleFrom (s.chronicleFrom g front) back := by
  induction front generalizing s g with
  | nil => rfl
  | cons c rest ih => exact ih (s.exec c).2 _

theorem reached_append (front back : List Command) :
    reached (front ++ back) = ((reached front).run back).2 :=
  run_append _ _ _

theorem reached_snoc (commands : List Command) (c : Command) :
    reached (commands ++ [c]) = ((reached commands).exec c).2 :=
  run_append _ _ _

theorem chronicle_snoc (commands : List Command) (c : Command) :
    chronicle (commands ++ [c]) =
      (chronicle commands).record c ((reached commands).exec c).1 ((reached commands).event? c) :=
  chronicleFrom_append _ _ _ _

theorem transcriptFrom_append (s : Session) (front back : List Command) :
    s.transcriptFrom (front ++ back) =
      s.transcriptFrom front ++ (s.run front).2.transcriptFrom back := by
  induction front generalizing s with
  | nil => rfl
  | cons c rest ih => exact congrArg (List.cons (c, (s.exec c).1)) (ih (s.exec c).2)

theorem transcript_snoc (commands : List Command) (c : Command) :
    transcript (commands ++ [c]) =
      transcript commands ++ [(c, ((reached commands).exec c).1)] :=
  transcriptFrom_append _ _ _

/-- What every transition keeps holds after every run. The commands of the run may be
restricted to those that are `allowed`. -/
theorem run_invariant {P : Session → Chronicle → Prop} (allowed : Command → Prop)
    (keeps : ∀ {s g c a e next}, allowed c → Transition s c a e next → P s g →
      P next (g.record c a e))
    {commands : List Command} (all : ∀ c ∈ commands, allowed c) (initial : P {} {}) :
    P (reached commands) (chronicle commands) := by
  unfold reached chronicle
  generalize ({} : Session) = s at initial ⊢
  generalize ({} : Chronicle) = g at initial ⊢
  induction commands generalizing s g with
  | nil => exact initial
  | cons c rest ih =>
    have here : allowed c := all c List.mem_cons_self
    have later : ∀ d ∈ rest, allowed d := fun d member => all d (List.mem_cons_of_mem _ member)
    exact ih later _ _ (keeps here (transition s c) initial)

end Session

/-! ## The events on a statement -/

theorem eventsOn_append (i : Nat) (a b : List Event) :
    eventsOn i (a ++ b) = eventsOn i a ++ eventsOn i b :=
  List.filter_append a b

@[simp] theorem eventsOn_singleton_self (e : Event) : eventsOn e.statement [e] = [e] := by
  simp [eventsOn]

theorem eventsOn_singleton_of_ne {i : Nat} {e : Event} (other : e.statement ≠ i) :
    eventsOn i [e] = [] := by
  simp [eventsOn, other]

theorem mem_eventsOn {i : Nat} {events : List Event} {e : Event} :
    e ∈ eventsOn i events ↔ e ∈ events ∧ e.statement = i := by
  simp [eventsOn]

theorem eventsOn_eq_nil {i : Nat} {events : List Event} (none : ∀ e ∈ events, e.statement ≠ i) :
    eventsOn i events = [] := by
  rw [List.eq_nil_iff_forall_not_mem]
  intro e member
  obtain ⟨inside, same⟩ := mem_eventsOn.1 member
  exact none e inside same

/-! ## The log of a statement -/

namespace Statement

theorem fragment_ne_empty (c : Config) (step : AppendedStep) : fragment c step ≠ "" := by
  cases step with
  | start e id => cases e <;> simp [fragment, callText]
  | _ => simp [fragment, callText]

theorem fragments_eq_join (c : Config) (steps : List AppendedStep) :
    fragments c steps = String.join (steps.map (fragment c)) := by
  induction steps with
  | nil => simp [fragments]
  | cons step rest ih => simp [fragments, ih]

end Statement

namespace Session

/-- The statements of a session hold what a chronicle says was carried out on them. -/
structure Logged (s : Session) (events : List Event) : Prop where
  /-- The steps of a statement are those of its events. -/
  steps : ∀ i statement, s.statements[i]? = some statement →
    statement.steps = (eventsOn i events).map Event.step
  /-- Each event wrote its step in the configuration of its statement. -/
  fragments : ∀ i statement, s.statements[i]? = some statement →
    ∀ e ∈ eventsOn i events, e.fragment = Statement.fragment statement.config e.step
  /-- There are events on statements of the session only. -/
  bounded : ∀ e ∈ events, e.statement < s.statements.length

theorem Logged.started {s : Session} {events : List Event} (logged : Logged s events)
    (into : String) (c : Config) : Logged (s.start into c).2 events := by
  have fresh : eventsOn s.statements.length events = [] :=
    eventsOn_eq_nil fun e member => Nat.ne_of_lt (logged.bounded e member)
  -- Either the statement was there before, or it is the new one and has no events.
  have cases_of {i : Nat} {statement : Statement}
      (h : (s.statements ++ [Statement.ofConfig c])[i]? = some statement) :
      s.statements[i]? = some statement ∨ i = s.statements.length ∧ statement = .ofConfig c := by
    rw [List.getElem?_append] at h
    split at h
    · exact .inl h
    · obtain ⟨hi, hs⟩ := List.getElem?_eq_some_iff.1 h
      simp only [List.length_singleton] at hi
      exact .inr ⟨by omega, by simpa using hs.symm⟩
  refine ⟨fun i statement h => ?_, fun i statement h e member => ?_, fun e member => ?_⟩
  · rcases cases_of h with before | ⟨rfl, rfl⟩
    · exact logged.steps i statement before
    · simp [fresh, Statement.ofConfig]
  · rcases cases_of h with before | ⟨rfl, rfl⟩
    · exact logged.fragments i statement before e member
    · simp [fresh] at member
  · have := logged.bounded e member
    simp only [statements_start, List.length_append, List.length_singleton]
    omega

theorem Logged.appended {s : Session} {events : List Event} (logged : Logged s events)
    {h : String} {handle : Handle} {statement : Statement}
    (found : s.find? h = some (handle, statement)) (into : String) (kind : Kind)
    (step : AppendedStep) :
    Logged (s.append h into handle statement kind step).2
      (events ++ [⟨handle.statement, handle.kind, step,
        Statement.fragment statement.config step⟩]) := by
  have shown := (find?_eq_some_iff.1 found).2
  refine ⟨fun i grown hg => ?_, fun i grown hg e member => ?_, fun e member => ?_⟩
  · rw [statements_append, getElem?_set_of_find? found] at hg
    rw [eventsOn_append]
    split at hg
    · next same =>
      cases hg
      subst same
      simp [eventsOn, logged.steps _ _ shown]
    · next other =>
      rw [eventsOn_singleton_of_ne other, List.append_nil]
      exact logged.steps i grown hg
  · rw [statements_append, getElem?_set_of_find? found] at hg
    rw [eventsOn_append, List.mem_append] at member
    split at hg
    · next same =>
      cases hg
      subst same
      rcases member with earlier | now
      · exact logged.fragments _ _ shown e earlier
      · simp only [eventsOn, beq_self_eq_true, List.filter_cons_of_pos, List.filter_nil,
          List.mem_singleton] at now
        rw [now, Statement.config_append]
    · next other =>
      rw [eventsOn_singleton_of_ne other] at member
      rcases member with earlier | now
      · exact logged.fragments i grown hg e earlier
      · simp at now
  · rw [statements_append, List.length_set]
    rcases List.mem_append.1 member with earlier | now
    · exact logged.bounded e earlier
    · rw [List.mem_singleton.1 now]
      exact statement_lt_of_find? found

theorem Logged.keeps {s next : Session} {events : List Event} {c : Command} {a : Answer}
    {e : Option Event} (t : Transition s c a e next) (logged : Logged s events) :
    Logged next (events ++ e.toList) := by
  cases t with
  | started opens => simpa using logged.started _ _
  | appended found _ _ _ => exact logged.appended found _ _ _
  | observed _ | refused => simpa using logged
  | forgotten | cloned _ _ | spent _ =>
    rw [Option.toList_none, List.append_nil]
    exact ⟨logged.steps, logged.fragments, logged.bounded⟩

theorem logged_run (commands : List Command) :
    Logged (reached commands) (chronicle commands).events := by
  refine run_invariant (P := fun s g => Logged s g.events) (fun _ => True)
    (fun _ t logged => logged.keeps t) (fun _ _ => trivial) ⟨?_, ?_, ?_⟩
  · intro i statement h
    simp at h
  · intro i statement h
    simp at h
  · intro e member
    simp at member

/-- The text of a statement of a logged session. -/
theorem Logged.text {s : Session} {events : List Event} (logged : Logged s events) {i : Nat}
    {statement : Statement} (h : s.statements[i]? = some statement) :
    statement.text =
      statement.config.source ++ String.join ((eventsOn i events).map Event.fragment) := by
  have written : (eventsOn i events).map (fun e => Statement.fragment statement.config e.step) =
      (eventsOn i events).map Event.fragment :=
    List.map_congr_left fun e member => (logged.fragments i statement h e member).symm
  rw [Statement.text_eq, Statement.fragments_eq_join, logged.steps i statement h, List.map_map,
    ← written]
  rfl

/-- A step that is answered with a handle has been carried out. -/
theorem appended_of_handle {s next : Session} {h into : String} {asked : AskedStep}
    {kind : Kind} {text : String} {e : Option Event}
    (t : Transition s (.step h into asked) (.handle kind text) e next) :
    ∃ handle statement step, s.find? h = some (handle, statement) ∧
      e = some ⟨handle.statement, handle.kind, step, Statement.fragment statement.config step⟩ ∧
      text = (statement.append step).text ∧
      next = (s.append h into handle statement kind step).2 := by
  cases t with
  | observed looks => simp [isObservation] at looks
  | started opens => simp [Command.opening?] at opens
  | appended found _ _ _ => exact ⟨_, _, _, found, rfl, rfl, rfl⟩

/-- Texts only grow at their end. The text of every statement is its source and what the
steps wrote that were carried out on it, through whichever handle, in order. A step that
is answered with a handle writes one piece of text that is not empty at the end of one
statement, and touches no other statement and no handles but the two it names. -/
theorem text_eq_log (commands : List Command) :
    (∀ i statement, (reached commands).statements[i]? = some statement →
      statement.text = statement.config.source ++
        String.join ((eventsOn i (chronicle commands).events).map Event.fragment)) ∧
    ∀ h into asked kind text,
      ((reached commands).exec (.step h into asked)).1 = .handle kind text →
      ∃ handle statement longer e,
        (reached commands).find? h = some (handle, statement) ∧
        (reached (commands ++ [.step h into asked])).find? into =
          some (⟨handle.statement, kind⟩, longer) ∧
        (chronicle (commands ++ [.step h into asked])).events =
          (chronicle commands).events ++ [e] ∧
        e.statement = handle.statement ∧ e.fragment ≠ "" ∧
        longer.text = statement.text ++ e.fragment ∧ text = longer.text ∧
        statement.text.utf8ByteSize < longer.text.utf8ByteSize ∧
        longer.config = statement.config ∧
        (∀ i, i ≠ handle.statement →
          (reached (commands ++ [.step h into asked])).statements[i]? =
            (reached commands).statements[i]?) ∧
        ∀ name, name ≠ h → name ≠ into →
          (reached (commands ++ [.step h into asked])).handles.get? name =
            (reached commands).handles.get? name := by
  refine ⟨fun i statement h => (logged_run commands).text h, ?_⟩
  intro h into asked kind text answered
  have t := transition (reached commands) (.step h into asked)
  rw [reached_snoc, chronicle_snoc, Chronicle.record]
  generalize (reached commands).event? (.step h into asked) = event at t ⊢
  generalize ((reached commands).exec (.step h into asked)).2 = next at t ⊢
  rw [answered] at t
  obtain ⟨handle, statement, step, found, rfl, rfl, rfl⟩ := appended_of_handle t
  have written := Statement.fragment_ne_empty statement.config step
  refine ⟨handle, statement, statement.append step, _, found, ?_, rfl, rfl, written,
    Statement.text_append _ _, rfl, ?_, rfl, fun i other => ?_, fun name notAsked notInto => ?_⟩
  · rw [find?_eq_some_iff, get?_append, statements_append, getElem?_set_of_find? found]
    simp
  · have positive : (Statement.fragment statement.config step).utf8ByteSize ≠ 0 :=
      fun zero => written (String.utf8ByteSize_eq_zero_iff.1 zero)
    rw [Statement.text_append, String.utf8ByteSize_append]
    omega
  · rw [statements_append, getElem?_set_of_find? found, if_neg (Ne.symm other)]
  · rw [get?_append, if_neg (Ne.symm notInto), if_neg (Ne.symm notAsked)]

end Session

end Gremlin
