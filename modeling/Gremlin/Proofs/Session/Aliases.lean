import Gremlin.Proofs.Session.Lineage

/-!
# Alias classes

Two handles are aliases if they show the same statement. What a handle shows was decided
when its statement was started: a step and a clone only hand it on. So the handles that
show one statement are those that descend from the command which started it, whatever
happened in between to names, kinds and texts.

Results:
1. `statement_of_source`: a new handle shows what the handle showed that it is made from.
2. `founded_run`: where the statements of a session were started.
3. `related_next_iff`: no command joins or parts classes of aliases.
4. `related_iff_same_creator`: aliases are the handles with a common creator; they show the
   same and see each step together.
-/

namespace Gremlin

/-! ## Definitions -/

/-- The name under which a command puts a handle, and the name of the handle that this one
is made from. The first handle of a statement is made from none. -/
def Command.made? : Command → Answer → Option (String × Option String)
  | .new into, .handle _ _ => some (into, none)
  | .withConfig into _, .handle _ _ => some (into, none)
  | .withJson into _, .handle _ _ => some (into, none)
  | .clone h into, .handle _ _ => some (into, some h)
  | .step h into _, .handle _ _ => some (into, some h)
  | _, _ => none

/-- The name that the handle of a name had before a command, or none if the command made
it from no other handle. -/
def Command.source? (c : Command) (a : Answer) (name : String) : Option String :=
  match c.made? a with
  | some (into, source) => if into = name then source else some name
  | none => some name

/-- The command that started the statement of a handle, by its place in a transcript that
is given back to front: the handle is followed back through clones and steps. -/
def creatorBack : List (Command × Answer) → String → Option Nat
  | [], _ => none
  | (c, a) :: earlier, name =>
    match c.source? a name with
    | none => some earlier.length
    | some source => creatorBack earlier source

/-- The command that started the statement of a handle, by its place in a transcript. -/
def creator (transcript : List (Command × Answer)) (name : String) : Option Nat :=
  creatorBack transcript.reverse name

namespace Session

/-- A name stands for a handle. -/
def Live (s : Session) (name : String) : Prop := (s.find? name).isSome = true

/-- Two names stand for handles that are said to show the same statement. -/
def Related (s : Session) (a b : String) : Prop := (s.exec (.same a b)).1 = .same true

/-- Where the statements of a session were started: `places` are the places of the commands
in the transcript, in order, and each handle has the command of its statement as creator. -/
structure Founded (s : Session) (transcript : List (Command × Answer)) (places : List Nat) :
    Prop where
  length : places.length = s.statements.length
  creator : ∀ {name : String} {handle : Handle}, s.handles.get? name = some handle →
    ∃ place, places[handle.statement]? = some place ∧ creator transcript name = some place
  ascending : places.Pairwise (· < ·)
  starts : ∀ place ∈ places, ∃ c a into, transcript[place]? = some (c, a) ∧
    c.made? a = some (into, none)

/-! ## Where handles come from -/

theorem creator_snoc (transcript : List (Command × Answer)) (c : Command) (a : Answer)
    (name : String) :
    creator (transcript ++ [(c, a)]) name =
      match c.source? a name with
      | none => some transcript.length
      | some source => creator transcript source := by
  simp [creator, creatorBack]

theorem made?_of_observation {c : Command} (a : Answer) (looks : isObservation c = true) :
    c.made? a = none := by
  cases c with
  | view _ | size _ | config _ | inspect _ | same _ _ => rfl
  | _ => cases looks

theorem made?_refused (c : Command) (r : Refusal) : c.made? (.refused r) = none := by
  cases c <;> rfl

theorem made?_of_opening {c : Command} {into : String} {config : Config}
    (opens : c.opening? = some (into, .ok config)) (kind : Kind) (text : String) :
    c.made? (.handle kind text) = some (into, none) := by
  cases c with
  | new _ | withConfig _ _ | withJson _ _ =>
    rw [← (Prod.mk.inj (Option.some.inj opens)).1]
    rfl
  | _ => cases opens

theorem source?_of_made?_none {c : Command} {a : Answer} (nothing : c.made? a = none)
    (name : String) : c.source? a name = some name := by
  rw [Command.source?, nothing]

/-- A handle shows what the handle showed that it is made from, or a new statement. -/
theorem statement_of_source {s next : Session} {c : Command} {a : Answer} {e : Option Event}
    (t : Transition s c a e next) {name : String} {handle : Handle}
    (bound : next.handles.get? name = some handle) :
    (c.source? a name = none ∧ handle.statement = s.statements.length) ∨
      ∃ source held, c.source? a name = some source ∧ s.handles.get? source = some held ∧
        held.statement = handle.statement := by
  cases t with
  | observed looks =>
    exact .inr ⟨name, handle, source?_of_made?_none (made?_of_observation a looks) name, bound, rfl⟩
  | refused =>
    exact .inr ⟨name, handle, source?_of_made?_none (made?_refused c _) name, bound, rfl⟩
  | started opens =>
    rw [get?_start] at bound
    rw [Command.source?, made?_of_opening opens]
    dsimp only
    split at bound
    · next here =>
      cases bound
      exact .inl ⟨if_pos here, rfl⟩
    · next other => exact .inr ⟨name, handle, if_neg other, bound, rfl⟩
  | forgotten | spent _ =>
    rw [Bindings.get?_erase] at bound
    exact .inr ⟨name, handle, rfl, get?_of_erased bound, rfl⟩
  | @cloned h into held _ found _ =>
    rw [Bindings.get?_set] at bound
    show _ ∨ ∃ source held, (if into = name then some h else some name) = some source ∧ _
    split at bound
    · next here =>
      cases bound
      exact .inr ⟨h, handle, if_pos here, (find?_eq_some_iff.1 found).1, rfl⟩
    · next other => exact .inr ⟨name, handle, if_neg other, bound, rfl⟩
  | @appended h into _ held _ _ kind found _ _ _ =>
    rw [get?_append] at bound
    show _ ∨ ∃ source held, (if into = name then some h else some name) = some source ∧ _
    split at bound
    · next here =>
      cases bound
      exact .inr ⟨h, held, if_pos here, (find?_eq_some_iff.1 found).1, rfl⟩
    · next other => exact .inr ⟨name, handle, if_neg other, get?_of_erased bound, rfl⟩

/-- A command that makes a handle from no other one starts a statement, and no other
command does. -/
theorem length_of_transition {s next : Session} {c : Command} {a : Answer} {e : Option Event}
    (t : Transition s c a e next) :
    (∃ into, c.made? a = some (into, none) ∧
        next.statements.length = s.statements.length + 1) ∨
      (∀ name, c.source? a name ≠ none) ∧ next.statements.length = s.statements.length := by
  have kept (nothing : c.made? a = none) (name : String) : c.source? a name ≠ none := by
    rw [source?_of_made?_none nothing]
    exact Option.some_ne_none name
  cases t with
  | observed looks => exact .inr ⟨kept (made?_of_observation a looks), rfl⟩
  | refused => exact .inr ⟨kept (made?_refused c _), rfl⟩
  | started opens => exact .inl ⟨_, made?_of_opening opens _ _, by simp⟩
  | forgotten | spent _ => exact .inr ⟨kept rfl, rfl⟩
  | @cloned h into _ _ _ _ =>
    refine .inr ⟨fun name => ?_, rfl⟩
    show (if into = name then some h else some name) ≠ none
    split <;> exact Option.some_ne_none _
  | @appended h into _ _ _ _ _ _ _ _ _ =>
    refine .inr ⟨fun name => ?_, by simp⟩
    show (if into = name then some h else some name) ≠ none
    split <;> exact Option.some_ne_none _

/-! ## Where statements were started -/

theorem getElem?_append_of_some {α : Type} {l : List α} {i : Nat} {x : α}
    (h : l[i]? = some x) (back : List α) : (l ++ back)[i]? = some x := by
  rw [List.getElem?_append_left (List.getElem?_eq_some_iff.1 h).1]
  exact h

theorem creator_of_source {c : Command} {a : Answer} {name source : String}
    (comes : c.source? a name = some source) (transcript : List (Command × Answer)) :
    creator (transcript ++ [(c, a)]) name = creator transcript source := by
  rw [creator_snoc, comes]

theorem creator_of_fresh {c : Command} {a : Answer} {name : String}
    (fresh : c.source? a name = none) (transcript : List (Command × Answer)) :
    creator (transcript ++ [(c, a)]) name = some transcript.length := by
  rw [creator_snoc, fresh]

theorem Founded.keeps {s next : Session} {transcript : List (Command × Answer)}
    {places : List Nat} {c : Command} {a : Answer} {e : Option Event}
    (founded : Founded s transcript places) (t : Transition s c a e next) :
    ∃ places, Founded next (transcript ++ [(c, a)]) places := by
  have before : ∀ place ∈ places, ∃ d b into, (transcript ++ [(c, a)])[place]? = some (d, b) ∧
      d.made? b = some (into, none) := by
    intro place member
    obtain ⟨d, b, into, stands, made⟩ := founded.starts place member
    exact ⟨d, b, into, getElem?_append_of_some stands _, made⟩
  have kept {name source : String} {held handle : Handle}
      (comes : c.source? a name = some source) (bound : s.handles.get? source = some held)
      (shows : held.statement = handle.statement) (more : List Nat) :
      ∃ place, (places ++ more)[handle.statement]? = some place ∧
        Gremlin.creator (transcript ++ [(c, a)]) name = some place := by
    obtain ⟨place, stands, created⟩ := founded.creator bound
    rw [creator_of_source comes, ← shows]
    exact ⟨place, getElem?_append_of_some stands more, created⟩
  -- A new statement comes last, and so does the place of the command that started it.
  rcases length_of_transition t with ⟨into, made, longer⟩ | ⟨derived, same⟩
  · refine ⟨places ++ [transcript.length], ?_, fun {name handle} bound => ?_, ?_, ?_⟩
    · rw [List.length_append, founded.length, longer, List.length_singleton]
    · rcases statement_of_source t bound with ⟨fresh, new⟩ | ⟨source, held, comes, old, shows⟩
      · rw [new, ← founded.length, creator_of_fresh fresh]
        exact ⟨_, List.getElem?_concat_length, rfl⟩
      · exact kept comes old shows _
    · refine List.pairwise_append.2 ⟨founded.ascending, List.pairwise_singleton _ _, ?_⟩
      intro place member last now
      obtain ⟨_, _, _, stands, _⟩ := founded.starts place member
      rw [List.mem_singleton.1 now]
      exact (List.getElem?_eq_some_iff.1 stands).1
    · intro place member
      rcases List.mem_append.1 member with earlier | now
      · exact before place earlier
      · rw [List.mem_singleton.1 now]
        exact ⟨c, a, into, List.getElem?_concat_length, made⟩
  · refine ⟨places, by rw [founded.length, same], fun {name handle} bound => ?_,
      founded.ascending, before⟩
    rcases statement_of_source t bound with ⟨fresh, _⟩ | ⟨source, held, comes, old, shows⟩
    · exact absurd fresh (derived name)
    · simpa only [List.append_nil] using kept comes old shows []

theorem founded_run (commands : List Command) :
    ∃ places, Founded (reached commands) (transcript commands) places := by
  induction commands using List.reverseRecOn with
  | nil => exact ⟨[], rfl, fun bound => by simp [reached, run] at bound, .nil, nofun⟩
  | append_singleton commands c ih =>
    obtain ⟨places, founded⟩ := ih
    rw [reached_snoc, transcript_snoc]
    exact founded.keeps (transition _ c)

/-! ## Aliases -/

theorem live_iff {s : Session} {name : String} :
    s.Live name ↔ ∃ handle statement, s.find? name = some (handle, statement) := by
  simp only [Live, Option.isSome_iff_exists, Prod.exists]

theorem related_iff {s : Session} {a b : String} :
    s.Related a b ↔ ∃ handle other statement, s.find? a = some (handle, statement) ∧
      s.find? b = some (other, statement) ∧ handle.statement = other.statement := by
  unfold Related
  simp only [exec, observe]
  constructor
  · intro same
    cases foundA : s.find? a with
    | none => simp [foundA] at same
    | some pair =>
      cases foundB : s.find? b with
      | none => simp [foundA, foundB] at same
      | some pair' =>
        obtain ⟨handle, statement⟩ := pair
        obtain ⟨other, statement'⟩ := pair'
        simp only [foundA, foundB, Answer.same.injEq, beq_iff_eq] at same
        have shown := (find?_eq_some_iff.1 foundA).2
        rw [same, (find?_eq_some_iff.1 foundB).2] at shown
        cases shown
        exact ⟨handle, other, statement, rfl, rfl, same⟩
  · rintro ⟨handle, other, statement, foundA, foundB, same⟩
    simp [foundA, foundB, same]

section Founded

variable {s : Session} {transcript : List (Command × Answer)} {places : List Nat}

theorem Founded.find? (founded : Founded s transcript places) {name : String} {handle : Handle}
    (bound : s.handles.get? name = some handle) :
    ∃ statement, s.find? name = some (handle, statement) := by
  obtain ⟨place, stands, _⟩ := founded.creator bound
  have shown : handle.statement < s.statements.length := by
    rw [← founded.length]
    exact (List.getElem?_eq_some_iff.1 stands).1
  exact ⟨_, find?_eq_some_iff.2 ⟨bound, List.getElem?_eq_getElem shown⟩⟩

theorem Founded.related_iff_statement (founded : Founded s transcript places) {a b : String}
    {handle other : Handle} (boundA : s.handles.get? a = some handle)
    (boundB : s.handles.get? b = some other) :
    s.Related a b ↔ handle.statement = other.statement := by
  obtain ⟨statement, foundA⟩ := founded.find? boundA
  obtain ⟨statement', foundB⟩ := founded.find? boundB
  simp [Related, exec, observe, foundA, foundB]

theorem Founded.related_iff_creator (founded : Founded s transcript places) {a b : String}
    (liveA : s.Live a) (liveB : s.Live b) :
    s.Related a b ↔ Gremlin.creator transcript a = Gremlin.creator transcript b := by
  obtain ⟨handle, _, foundA⟩ := live_iff.1 liveA
  obtain ⟨other, _, foundB⟩ := live_iff.1 liveB
  have boundA := (find?_eq_some_iff.1 foundA).1
  have boundB := (find?_eq_some_iff.1 foundB).1
  obtain ⟨place, standsA, createdA⟩ := founded.creator boundA
  obtain ⟨place', standsB, createdB⟩ := founded.creator boundB
  rw [founded.related_iff_statement boundA boundB, createdA, createdB, ← standsA, ← standsB]
  have inside : handle.statement < places.length := (List.getElem?_eq_some_iff.1 standsA).1
  have distinct : places.Nodup := founded.ascending.imp Nat.ne_of_lt
  exact (List.getElem?_inj inside distinct).symm

/-- No command joins or parts classes of aliases: two handles are aliases after a command
iff the handles were that they are made from, or the command made both from none. -/
theorem related_next_iff {next : Session} {c : Command} {a : Answer} {e : Option Event}
    (founded : Founded s transcript places) (t : Transition s c a e next) {x y : String}
    (liveX : next.Live x) (liveY : next.Live y) :
    next.Related x y ↔ (c.source? a x = none ∧ c.source? a y = none) ∨
      ∃ x' y', c.source? a x = some x' ∧ c.source? a y = some y' ∧ s.Related x' y' := by
  obtain ⟨_, foundedNext⟩ := founded.keeps t
  obtain ⟨handleX, _, foundX⟩ := live_iff.1 liveX
  obtain ⟨handleY, _, foundY⟩ := live_iff.1 liveY
  have boundX := (find?_eq_some_iff.1 foundX).1
  have boundY := (find?_eq_some_iff.1 foundY).1
  -- No older handle shows a statement that the command has just started.
  have older {name : String} {held : Handle} (bound : s.handles.get? name = some held) :
      held.statement ≠ s.statements.length := by
    obtain ⟨statement, found⟩ := founded.find? bound
    exact Nat.ne_of_lt (statement_lt_of_find? found)
  rw [foundedNext.related_iff_statement boundX boundY]
  rcases statement_of_source t boundX with ⟨freshX, newX⟩ | ⟨x', heldX, fromX, oldX, showsX⟩ <;>
    rcases statement_of_source t boundY with ⟨freshY, newY⟩ | ⟨y', heldY, fromY, oldY, showsY⟩
  · simp [freshX, freshY, newX, newY]
  · simp [freshX, fromY, newX, ← showsY, (older oldY).symm]
  · simp [fromX, freshY, newY, ← showsX, older oldX]
  · simp [fromX, fromY, ← showsX, ← showsY, founded.related_iff_statement oldX oldY]

end Founded

theorem related_equivalence (s : Session) :
    Equivalence fun a b : {name // s.Live name} => s.Related a b := by
  refine ⟨fun ⟨a, live⟩ => ?_, fun {a b} related => ?_, fun {a b c} first second => ?_⟩
  · obtain ⟨handle, statement, found⟩ := live_iff.1 live
    exact related_iff.2 ⟨handle, handle, statement, found, found, rfl⟩
  · obtain ⟨handle, other, statement, foundA, foundB, same⟩ := related_iff.1 related
    exact related_iff.2 ⟨other, handle, statement, foundB, foundA, same.symm⟩
  · obtain ⟨handle, middle, statement, foundA, foundB, same⟩ := related_iff.1 first
    obtain ⟨middle', other, statement', foundB', foundC, same'⟩ := related_iff.1 second
    rw [foundB] at foundB'
    cases foundB'
    exact related_iff.2 ⟨handle, other, statement, foundA, foundC, same.trans same'⟩

/-- Aliases show the same text, of the same length, in the same configuration. -/
theorem Related.shows_same {s : Session} {a b : String} (related : s.Related a b) :
    ∃ kind other text, (s.exec (.view a)).1 = .handle kind text ∧
      (s.exec (.view b)).1 = .handle other text ∧
      (s.exec (.size a)).1 = (s.exec (.size b)).1 ∧
      (s.exec (.config a)).1 = (s.exec (.config b)).1 := by
  obtain ⟨handle, other, statement, foundA, foundB, _⟩ := related_iff.1 related
  exact ⟨handle.kind, other.kind, statement.text, by simp [exec, observe, foundA, foundB]⟩

/-- A step through one handle is seen through all its aliases, whose kinds it leaves. -/
theorem Related.sees_step {s : Session} {h into x : String} {asked : AskedStep} {kind : Kind}
    {text : String} (related : s.Related h x) (notAsked : x ≠ h) (notInto : x ≠ into)
    (answered : (s.exec (.step h into asked)).1 = .handle kind text) :
    ∃ seen before, (s.exec (.view x)).1 = .handle seen before ∧
      ((s.exec (.step h into asked)).2.exec (.view x)).1 = .handle seen text := by
  obtain ⟨handle, other, statement, foundH, foundX, same⟩ := related_iff.1 related
  have t := transition s (.step h into asked)
  rw [answered] at t
  obtain ⟨handle', statement', step, found, _, rfl, next⟩ := appended_of_handle t
  rw [foundH] at found
  cases found
  refine ⟨other.kind, statement.text, by simp [exec, observe, foundX], ?_⟩
  have seen : (s.exec (.step h into asked)).2.find? x =
      some (other, statement.append step) := by
    rw [next, find?_append foundH, if_neg (Ne.symm notInto), if_neg (Ne.symm notAsked), foundX]
    simp [same]
  generalize (s.exec (.step h into asked)).2 = after at seen
  simp [exec, observe, seen]

/-- Being aliases is an equivalence of handles, and its classes are the handles with a common
creator, which is a command that started a statement. No command joins or parts classes:
two handles are aliases afterwards iff the handles were that they are made from. Aliases
show the same, whatever their kinds, and a step through one of them is seen through all. -/
theorem related_iff_same_creator (commands : List Command) :
    (Equivalence fun a b : {name // (reached commands).Live name} =>
      (reached commands).Related a b) ∧
    (∀ name, (reached commands).Live name → ∃ place c answer into,
      creator (transcript commands) name = some place ∧
      (transcript commands)[place]? = some (c, answer) ∧ c.made? answer = some (into, none)) ∧
    (∀ a b, (reached commands).Live a → (reached commands).Live b →
      ((reached commands).Related a b ↔
        creator (transcript commands) a = creator (transcript commands) b)) ∧
    (∀ c x y, (reached (commands ++ [c])).Live x → (reached (commands ++ [c])).Live y →
      ((reached (commands ++ [c])).Related x y ↔
        (c.source? ((reached commands).exec c).1 x = none ∧
          c.source? ((reached commands).exec c).1 y = none) ∨
        ∃ x' y', c.source? ((reached commands).exec c).1 x = some x' ∧
          c.source? ((reached commands).exec c).1 y = some y' ∧
          (reached commands).Related x' y')) ∧
    (∀ a b, (reached commands).Related a b → ∃ kind other text,
      ((reached commands).exec (.view a)).1 = .handle kind text ∧
      ((reached commands).exec (.view b)).1 = .handle other text ∧
      ((reached commands).exec (.size a)).1 = ((reached commands).exec (.size b)).1 ∧
      ((reached commands).exec (.config a)).1 = ((reached commands).exec (.config b)).1) ∧
    ∀ h into asked kind text x,
      ((reached commands).exec (.step h into asked)).1 = .handle kind text →
      (reached commands).Related h x → x ≠ h → x ≠ into → ∃ seen before,
        ((reached commands).exec (.view x)).1 = .handle seen before ∧
        ((reached (commands ++ [.step h into asked])).exec (.view x)).1 = .handle seen text := by
  obtain ⟨places, founded⟩ := founded_run commands
  refine ⟨related_equivalence _, fun name live => ?_, fun a b => founded.related_iff_creator,
    fun c x y liveX liveY => ?_, fun a b related => related.shows_same,
    fun h into asked kind text x answered related notAsked notInto => ?_⟩
  · obtain ⟨handle, _, found⟩ := live_iff.1 live
    obtain ⟨place, stands, created⟩ := founded.creator (find?_eq_some_iff.1 found).1
    obtain ⟨c, answer, into, listed, made⟩ := founded.starts place (List.mem_of_getElem? stands)
    exact ⟨place, c, answer, into, created, listed, made⟩
  · rw [reached_snoc] at liveX liveY ⊢
    exact related_next_iff founded (transition _ c) liveX liveY
  · rw [reached_snoc]
    exact related.sees_step notAsked notInto answered

/-- Two statements with the same text, and a second handle on the first one that keeps its
kind while the first handle moves on. -/
def twinRun : List Command :=
  [.new "q", .new "p", .step "q" "q" (.start .edge none), .clone "q" "a",
    .step "p" "p" (.start .edge none), .step "p" "r" (.move .outV none),
    .step "q" "q" (.move .outV none)]

/-- The handles of two statements with the same text and configuration are no aliases, and
the handles of one statement are, also with different kinds. -/
theorem related_twins :
    (reached twinRun).Related "a" "q" ∧ ¬ (reached twinRun).Related "q" "r" ∧
    ((reached twinRun).exec (.view "q")).1 = ((reached twinRun).exec (.view "r")).1 ∧
    ((reached twinRun).exec (.config "q")).1 = ((reached twinRun).exec (.config "r")).1 ∧
    ((reached twinRun).exec (.view "a")).1 ≠ ((reached twinRun).exec (.view "q")).1 := by
  obtain ⟨_, _, classes, _⟩ := related_iff_same_creator twinRun
  have live : (reached twinRun).Live "a" ∧ (reached twinRun).Live "q" ∧
      (reached twinRun).Live "r" := by
    unfold Live
    decide
  have creators : creator (transcript twinRun) "a" = some 0 ∧
      creator (transcript twinRun) "q" = some 0 ∧ creator (transcript twinRun) "r" = some 1 := by
    decide +kernel
  refine ⟨(classes "a" "q" live.1 live.2.1).2 (creators.1.trans creators.2.1.symm), ?_,
    by decide +kernel⟩
  rw [classes "q" "r" live.2.1 live.2.2, creators.2.1, creators.2.2]
  decide

end Session

end Gremlin
