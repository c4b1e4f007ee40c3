import Gremlin.Proofs.Session.Chronicle
import Mathlib.Data.List.Induction

/-!
# Lineages and the grammar

A handle carries a kind, and the kind alone decides which steps can be asked of it. This
module compares the kinds with two readings of what was carried out: the lineage of a
handle, and the whole step sequence of a statement. The automaton of kinds always
accepts the first. It accepts the second only as long as nobody asks a handle for a step
after the statement has moved on through another one.

Results:
1. `traced_run`: lineages are accepted runs that end in the kinds of their handles.
2. `unshared_run`: without clones a statement has one handle, and a lineage that misses
   nothing.
3. `kind_eq_end_of_lineage`: both, with the fragments in the text.
4. `grammatical_iff_no_stray`: when the steps of a statement are an accepted run.
5. `clone_breaks_grammar`: two aliases write a chain that is no accepted run.
-/

namespace Gremlin

/-! ## Definitions -/

/-- Where steps lead from a kind, if each of them can follow the one before. -/
def Kind.run? (k : Kind) (steps : List AppendedStep) : Option Kind :=
  steps.foldlM (fun k step => k.next? step) k

/-- A step that could not follow the steps which its statement had before. -/
def Stray (before : List Event) (e : Event) : Prop :=
  ∃ k, Kind.root.run? ((eventsOn e.statement before).map Event.step) = some k ∧
    k.next? e.step = none

/-- A step that follows an accepted run of earlier steps of its statement, which need not
be all of them. -/
def Grounded (before : List Event) (e : Event) : Prop :=
  ∃ path : List Event, path.Sublist (eventsOn e.statement before) ∧
    Kind.root.run? (path.map Event.step) = some e.kind ∧ (e.kind.next? e.step).isSome

/-- Whether a command asks for a clone. -/
def Command.isClone : Command → Bool
  | .clone _ _ => true
  | _ => false

/-! ## Runs of the automaton -/

namespace Kind

@[simp] theorem run?_nil (k : Kind) : k.run? [] = some k := rfl

theorem run?_snoc (k : Kind) (steps : List AppendedStep) (step : AppendedStep) :
    k.run? (steps ++ [step]) = (k.run? steps).bind (·.next? step) := by
  simp [run?, List.foldlM_append]

theorem next?_general {k : Kind} (chained : k ≠ root) (g : General) :
    k.next? (.general g : AppendedStep) = some (if g = .mean then vertex else k) := by
  cases g <;> simp [next?, stayIf, isChained, chained]

end Kind

/-! ## Lineages -/

theorem lineageAfter_of_observation (lineage : String → List Event) {c : Command} (a : Answer)
    (looks : Session.isObservation c = true) : lineageAfter lineage c a none = lineage := by
  cases c with
  | view _ | size _ | config _ | inspect _ | same _ _ => rfl
  | _ => simp [Session.isObservation] at looks

theorem lineageAfter_refused (lineage : String → List Event) (c : Command) (r : Refusal) :
    lineageAfter lineage c (.refused r) none = lineage := by
  cases c <;> rfl

theorem lineageAfter_opening (lineage : String → List Event) {c : Command} {into : String}
    {config : Config} (opens : c.opening? = some (into, .ok config)) (kind : Kind)
    (text : String) :
    lineageAfter lineage c (.handle kind text) none = Function.update lineage into [] := by
  cases c with
  | new _ | withConfig _ _ | withJson _ _ =>
    simp only [Command.opening?, Option.some.injEq, Prod.mk.injEq] at opens
    rw [← opens.1]
    rfl
  | _ => simp [Command.opening?] at opens

namespace Session

/-- Where a handle under a name comes from, in the session after a command, and the
lineage it has there. -/
inductive Origin (s next : Session) (lineage : String → List Event) (e : Option Event)
    (name : String) : Handle → List Event → Prop
  /-- It was there before. -/
  | kept {handle : Handle} (bound : s.handles.get? name = some handle) :
      Origin s next lineage e name handle (lineage name)
  /-- It is the first handle of a new statement. -/
  | fresh (grown : s.statements.length < next.statements.length) :
      Origin s next lineage e name ⟨s.statements.length, .root⟩ []
  /-- It is a clone. -/
  | copied {h : String} {handle : Handle} (bound : s.handles.get? h = some handle) :
      Origin s next lineage e name handle (lineage h)
  /-- A step made it out of a handle. -/
  | moved {h : String} {handle : Handle} {kind : Kind} {event : Event}
      (bound : s.handles.get? h = some handle) (carried : e = some event)
      (on : event.statement = handle.statement)
      (follows : handle.kind.next? event.step = some kind) :
      Origin s next lineage e name ⟨handle.statement, kind⟩ (lineage h ++ [event])

/-- A command puts a new handle under one name and only drops others. -/
theorem Origin.update {s next : Session} {lineage : String → List Event} {e : Option Event}
    {into name : String} {new handle : Handle} {path : List Event} {others : Option Handle}
    (bound : (if into = name then some new else others) = some handle)
    (here : Origin s next lineage e name new path)
    (earlier : others = some handle → s.handles.get? name = some handle) :
    Origin s next lineage e name handle (Function.update lineage into path name) := by
  by_cases same : into = name
  · subst same
    rw [if_pos rfl] at bound
    cases bound
    rw [Function.update_self]
    exact here
  · rw [if_neg same] at bound
    rw [Function.update_of_ne (Ne.symm same)]
    exact .kept (earlier bound)

theorem get?_of_erased {s : Session} {h name : String} {handle : Handle}
    (bound : (if h = name then none else s.handles.get? name) = some handle) :
    s.handles.get? name = some handle := by
  split at bound
  · cases bound
  · exact bound

theorem origin {s next : Session} {c : Command} {a : Answer} {e : Option Event}
    (t : Transition s c a e next) (lineage : String → List Event) {name : String}
    {handle : Handle} (bound : next.handles.get? name = some handle) :
    Origin s next lineage e name handle (lineageAfter lineage c a e name) := by
  cases t with
  | observed looks =>
    rw [lineageAfter_of_observation lineage a looks]
    exact .kept bound
  | refused =>
    rw [lineageAfter_refused]
    exact .kept bound
  | started opens =>
    rw [lineageAfter_opening lineage opens]
    rw [get?_start] at bound
    exact .update bound (.fresh (by simp)) id
  | forgotten | spent _ =>
    rw [Bindings.get?_erase] at bound
    exact .kept (get?_of_erased bound)
  | @cloned h into _ _ found _ =>
    rw [Bindings.get?_set] at bound
    show Origin s _ lineage none name handle (Function.update lineage into (lineage h) name)
    exact .update bound (.copied (find?_eq_some_iff.1 found).1) id
  | @appended h into _ _ _ _ _ found _ grammatical _ =>
    rw [get?_append] at bound
    show Origin s _ lineage _ name handle (Function.update lineage into (lineage h ++ [_]) name)
    exact .update bound (.moved (find?_eq_some_iff.1 found).1 rfl rfl grammatical) get?_of_erased

theorem Transition.length_le {s next : Session} {c : Command} {a : Answer} {e : Option Event}
    (t : Transition s c a e next) : s.statements.length ≤ next.statements.length := by
  cases t with
  | started _ => simp
  | appended _ _ _ _ => simp
  | _ => exact Nat.le_refl _

/-! ## What holds of every run -/

/-- Every handle shows a statement and ends its lineage, and every event is grounded. -/
structure Traced (s : Session) (g : Chronicle) : Prop where
  live : ∀ {name : String} {handle : Handle}, s.handles.get? name = some handle →
    handle.statement < s.statements.length
  accepted : ∀ {name : String} {handle : Handle}, s.handles.get? name = some handle →
    Kind.root.run? ((g.lineage name).map Event.step) = some handle.kind
  sublist : ∀ {name : String} {handle : Handle}, s.handles.get? name = some handle →
    (g.lineage name).Sublist (eventsOn handle.statement g.events)
  grounded : ∀ before e after, g.events = before ++ e :: after → Grounded before e

/-- The last of some events, or an earlier one. -/
theorem split_snoc {events before after : List Event} {last e : Event}
    (h : events ++ [last] = before ++ e :: after) :
    events = before ∧ last = e ∨ ∃ rest, events = before ++ e :: rest := by
  rcases List.eq_nil_or_concat after with rfl | ⟨rest, final, rfl⟩
  · have := List.append_inj' h rfl
    exact .inl ⟨this.1, List.singleton_inj.1 this.2⟩
  · rw [List.concat_eq_append, ← List.cons_append, ← List.append_assoc] at h
    exact .inr ⟨rest, (List.append_inj' h rfl).1⟩

theorem Traced.grounded_of_transition {s next : Session} {g : Chronicle} {c : Command}
    {a : Answer} {e : Event} (traced : Traced s g) (t : Transition s c a (some e) next) :
    Grounded g.events e := by
  cases t with
  | appended found _ grammatical _ =>
    have bound := (find?_eq_some_iff.1 found).1
    refine ⟨g.lineage _, traced.sublist bound, traced.accepted bound, ?_⟩
    simp [grammatical]

theorem Traced.keeps {s next : Session} {g : Chronicle} {c : Command} {a : Answer}
    {e : Option Event} (t : Transition s c a e next) (traced : Traced s g) :
    Traced next (g.record c a e) := by
  have longer (i : Nat) : (eventsOn i g.events).Sublist (eventsOn i (g.events ++ e.toList)) := by
    rw [eventsOn_append]
    exact List.sublist_append_left _ _
  refine ⟨fun {name handle} bound => ?_, fun {name handle} bound => ?_,
    fun {name handle} bound => ?_, fun before event after split => ?_⟩
  · have grows := t.length_le
    have source := origin t g.lineage bound
    generalize lineageAfter g.lineage c a e name = path at source
    cases source with
    | kept earlier => exact Nat.lt_of_lt_of_le (traced.live earlier) grows
    | fresh grown => exact grown
    | copied earlier => exact Nat.lt_of_lt_of_le (traced.live earlier) grows
    | moved earlier _ _ _ =>
      have shown := traced.live earlier
      exact Nat.lt_of_lt_of_le shown grows
  · have source := origin t g.lineage bound
    unfold Chronicle.record
    dsimp only
    generalize lineageAfter g.lineage c a e name = path at source ⊢
    cases source with
    | kept earlier => exact traced.accepted earlier
    | fresh _ => rfl
    | copied earlier => exact traced.accepted earlier
    | moved earlier _ _ follows =>
      rw [List.map_append, List.map_singleton, Kind.run?_snoc, traced.accepted earlier]
      exact follows
  · have source := origin t g.lineage bound
    unfold Chronicle.record
    dsimp only
    generalize lineageAfter g.lineage c a e name = path at source ⊢
    cases source with
    | kept earlier => exact (traced.sublist earlier).trans (longer _)
    | fresh _ => exact List.nil_sublist _
    | copied earlier => exact (traced.sublist earlier).trans (longer _)
    | moved earlier carried on _ =>
      subst carried
      rw [eventsOn_append, Option.toList_some, ← on, eventsOn_singleton_self, on]
      exact (traced.sublist earlier).append (List.Sublist.refl _)
  · cases e with
    | none =>
      refine traced.grounded before event after ?_
      simpa [Chronicle.record] using split
    | some last =>
      rcases split_snoc split with ⟨rfl, rfl⟩ | ⟨rest, earlier⟩
      · exact traced.grounded_of_transition t
      · exact traced.grounded before event rest earlier

theorem traced_run (commands : List Command) : Traced (reached commands) (chronicle commands) := by
  refine run_invariant (P := Traced) (fun _ => True) (fun _ t traced => traced.keeps t)
    (fun _ _ => trivial) ⟨?_, ?_, ?_, ?_⟩
  · intro name handle bound
    simp at bound
  · intro name handle bound
    simp at bound
  · intro name handle bound
    simp at bound
  · intro before e after split
    simp at split

/-! ## Runs without clones -/

/-- Every statement has at most one handle, whose lineage misses nothing, and its steps
are an accepted run. -/
structure Unshared (s : Session) (g : Chronicle) : Prop where
  alone : ∀ {a b : String} {handle other : Handle}, s.handles.get? a = some handle →
    s.handles.get? b = some other → handle.statement = other.statement → a = b
  whole : ∀ {name : String} {handle : Handle}, s.handles.get? name = some handle →
    g.lineage name = eventsOn handle.statement g.events
  accepted : ∀ i, (Kind.root.run? ((eventsOn i g.events).map Event.step)).isSome

theorem Unshared.erased {s : Session} {g : Chronicle} (unshared : Unshared s g) (h : String) :
    Unshared { s with handles := s.handles.erase h } g := by
  have before {name : String} {handle : Handle}
      (bound : (s.handles.erase h).get? name = some handle) :
      s.handles.get? name = some handle := by
    rw [Bindings.get?_erase] at bound
    exact get?_of_erased bound
  exact ⟨fun ha hb same => unshared.alone (before ha) (before hb) same,
    fun bound => unshared.whole (before bound), unshared.accepted⟩

theorem Unshared.started {s : Session} {g : Chronicle} (logged : Logged s g.events)
    (traced : Traced s g) (unshared : Unshared s g) (into : String) (c : Config) :
    Unshared (s.start into c).2 { g with lineage := Function.update g.lineage into [] } := by
  have fresh : eventsOn s.statements.length g.events = [] :=
    eventsOn_eq_nil fun e member => Nat.ne_of_lt (logged.bounded e member)
  have cases_of {name : String} {handle : Handle}
      (bound : (s.start into c).2.handles.get? name = some handle) :
      name = into ∧ handle.statement = s.statements.length ∨
        name ≠ into ∧ s.handles.get? name = some handle ∧
          handle.statement ≠ s.statements.length := by
    rw [get?_start] at bound
    by_cases here : into = name
    · rw [if_pos here] at bound
      cases bound
      exact .inl ⟨here.symm, rfl⟩
    · rw [if_neg here] at bound
      exact .inr ⟨Ne.symm here, bound, Nat.ne_of_lt (traced.live bound)⟩
  refine ⟨fun {a b handle other} ha hb same => ?_, fun {name handle} bound => ?_,
    unshared.accepted⟩
  · rcases cases_of ha with ⟨rfl, newA⟩ | ⟨_, oldA, olderA⟩ <;>
      rcases cases_of hb with ⟨rfl, newB⟩ | ⟨_, oldB, olderB⟩
    · rfl
    · exact absurd (same.symm.trans newA) olderB
    · exact absurd (same.trans newB) olderA
    · exact unshared.alone oldA oldB same
  · rcases cases_of bound with ⟨rfl, new⟩ | ⟨other, old, _⟩
    · rw [new, fresh]
      exact Function.update_self _ _ _
    · rw [← unshared.whole old]
      exact Function.update_of_ne other _ _

theorem Unshared.appended {s : Session} {g : Chronicle} (traced : Traced s g)
    (unshared : Unshared s g) {h : String} {held : Handle} {statement : Statement}
    (found : s.find? h = some (held, statement)) (into : String) {kind : Kind} {e : Event}
    (on : e.statement = held.statement) (follows : held.kind.next? e.step = some kind) :
    Unshared (s.append h into held statement kind e.step).2
      ⟨g.events ++ [e], Function.update g.lineage into (g.lineage h ++ [e])⟩ := by
  have shown := (find?_eq_some_iff.1 found).1
  have cases_of {name : String} {handle : Handle}
      (bound : (s.append h into held statement kind e.step).2.handles.get? name = some handle) :
      name = into ∧ handle.statement = e.statement ∨
        name ≠ into ∧ s.handles.get? name = some handle ∧ e.statement ≠ handle.statement := by
    rw [get?_append] at bound
    by_cases here : into = name
    · rw [if_pos here] at bound
      cases bound
      exact .inl ⟨here.symm, on.symm⟩
    · rw [if_neg here] at bound
      split at bound
      · simp at bound
      · next notAsked =>
        exact .inr ⟨Ne.symm here, bound,
          fun same => notAsked (unshared.alone shown bound (on ▸ same))⟩
  refine ⟨fun {a b handle other} ha hb same => ?_, fun {name handle} bound => ?_, fun i => ?_⟩
  · rcases cases_of ha with ⟨rfl, newA⟩ | ⟨_, oldA, olderA⟩ <;>
      rcases cases_of hb with ⟨rfl, newB⟩ | ⟨_, oldB, olderB⟩
    · rfl
    · exact absurd (newA.symm.trans same) olderB
    · exact absurd (newB.symm.trans same.symm) olderA
    · exact unshared.alone oldA oldB same
  · dsimp only
    rw [eventsOn_append]
    rcases cases_of bound with ⟨rfl, new⟩ | ⟨other, old, elsewhere⟩
    · rw [new, eventsOn_singleton_self, on, ← unshared.whole shown]
      exact Function.update_self _ _ _
    · rw [eventsOn_singleton_of_ne elsewhere, List.append_nil, ← unshared.whole old]
      exact Function.update_of_ne other _ _
  · dsimp only
    rw [eventsOn_append, List.map_append]
    by_cases here : e.statement = i
    · subst here
      -- The lineage of the handle is all there is on its statement.
      rw [eventsOn_singleton_self, List.map_singleton, Kind.run?_snoc, on,
        ← unshared.whole shown, traced.accepted shown]
      simp [follows]
    · rw [eventsOn_singleton_of_ne here]
      simpa using unshared.accepted i

theorem unshared_run {commands : List Command} (noClone : ∀ c ∈ commands, c.isClone = false) :
    Unshared (reached commands) (chronicle commands) := by
  have all := run_invariant
    (P := fun s g => Logged s g.events ∧ Traced s g ∧ Unshared s g)
    (fun c => c.isClone = false) ?_ noClone ?_
  · exact all.2.2
  · rintro s g c a e next notClone t ⟨logged, traced, unshared⟩
    refine ⟨logged.keeps t, traced.keeps t, ?_⟩
    unfold Chronicle.record
    cases t with
    | observed looks =>
      rw [lineageAfter_of_observation _ _ looks, Option.toList_none, List.append_nil]
      exact unshared
    | refused =>
      rw [lineageAfter_refused, Option.toList_none, List.append_nil]
      exact unshared
    | started opens =>
      rw [lineageAfter_opening _ opens, Option.toList_none, List.append_nil]
      exact unshared.started logged traced _ _
    | forgotten | spent _ =>
      rw [Option.toList_none, List.append_nil]
      exact unshared.erased _
    | cloned _ _ => simp [Command.isClone] at notClone
    | appended found _ grammatical _ =>
      exact unshared.appended (e := ⟨_, _, _, _⟩) traced found _ rfl grammatical
  · exact ⟨logged_run [], traced_run [],
      ⟨fun ha => by simp at ha, fun bound => by simp at bound, fun _ => rfl⟩⟩

/-! ## Kinds and lineages -/

/-- The lineage of a handle is an accepted run from the root and ends in the kind of the
handle. What its steps wrote stands in the text of the statement in the same order, and
is all of the text behind the source if nothing was cloned. -/
theorem kind_eq_end_of_lineage {commands : List Command} {name : String} {handle : Handle}
    (bound : (reached commands).handles.get? name = some handle) :
    Kind.root.run? (((chronicle commands).lineage name).map Event.step) = some handle.kind ∧
    (∃ statement, (reached commands).statements[handle.statement]? = some statement ∧
      statement.text = statement.config.source ++ String.join
        ((eventsOn handle.statement (chronicle commands).events).map Event.fragment)) ∧
    (((chronicle commands).lineage name).map Event.fragment).Sublist
      ((eventsOn handle.statement (chronicle commands).events).map Event.fragment) ∧
    ((∀ c ∈ commands, c.isClone = false) →
      ((chronicle commands).lineage name).map Event.fragment =
        (eventsOn handle.statement (chronicle commands).events).map Event.fragment) ∧
    (∀ (k : Kind) (g : General), k ≠ .root →
      k.next? (.general g : AppendedStep) = some (if g = .mean then .vertex else k)) ∧
    ∀ (k : Kind) (element : Element) (label : Option String),
      k.next? (.add element label : AppendedStep) = some .added := by
  have traced := traced_run commands
  refine ⟨traced.accepted bound, ?_, (traced.sublist bound).map _, fun noClone => ?_,
    fun _ g chained => Kind.next?_general chained g, fun k => k.next?_add⟩
  · have shown := List.getElem?_eq_getElem (traced.live bound)
    exact ⟨_, shown, (logged_run commands).text shown⟩
  · rw [(unshared_run noClone).whole bound]

/-- Two aliases of one statement, of which one goes on to vertices before the other asks
for a bound on edges. -/
def forkedRun : List Command :=
  [.new "q", .step "q" "q" (.start .vertex none), .step "q" "q" (.move .outE none),
    .clone "q" "a", .step "q" "q" (.move .outV none), .step "a" "a" (.limit 5)]

/-- The alias keeps its own kind and lineage while the statement moves on without it. -/
theorem lineage_of_alias :
    (reached forkedRun).handles.get? "a" = some ⟨0, .edge⟩ ∧
      Kind.root.run? (((chronicle forkedRun).lineage "a").map Event.step) = some .edge := by
  have bound : (reached forkedRun).handles.get? "a" = some ⟨0, .edge⟩ := by decide +kernel
  exact ⟨bound, (kind_eq_end_of_lineage bound).1⟩

/-! ## Step sequences of statements -/

theorem isSome_run?_eventsOn_iff (i : Nat) (events : List Event) :
    (Kind.root.run? ((eventsOn i events).map Event.step)).isSome ↔
      ∀ before e after, events = before ++ e :: after → e.statement = i → ¬ Stray before e := by
  induction events using List.reverseRecOn with
  | nil => simp [eventsOn]
  | append_singleton events last ih =>
    rw [eventsOn_append, List.map_append]
    by_cases here : last.statement = i
    · rw [here.symm, eventsOn_singleton_self, here, List.map_singleton, Kind.run?_snoc]
      constructor
      · intro accepted before e after split on
        cases reached : Kind.root.run? ((eventsOn i events).map Event.step) with
        | none => simp [reached] at accepted
        | some k =>
          rcases split_snoc split with ⟨rfl, rfl⟩ | ⟨rest, earlier⟩
          · rintro ⟨k', atEnd, stuck⟩
            rw [on, reached] at atEnd
            cases atEnd
            simp [reached, stuck] at accepted
          · exact ih.1 (by simp [reached]) before e rest earlier on
      · intro none
        have before := ih.2 fun before e after split on =>
          none before e (after ++ [last]) (by simp [split]) on
        obtain ⟨k, reached⟩ := Option.isSome_iff_exists.1 before
        have follows : k.next? last.step ≠ Option.none := fun stuck =>
          none events last [] rfl here ⟨k, here ▸ reached, stuck⟩
        simpa [reached] using Option.isSome_iff_ne_none.2 follows
    · rw [eventsOn_singleton_of_ne here, List.map_nil, List.append_nil, ih]
      constructor
      · intro none before e after split on
        rcases split_snoc split with ⟨rfl, rfl⟩ | ⟨rest, earlier⟩
        · exact absurd on here
        · exact none before e rest earlier on
      · intro none before e after split on
        exact none before e (after ++ [last]) (by simp [split]) on

/-- The steps of a statement are an accepted run exactly if none of them was a stray. Every
step, strays included, follows an accepted run of earlier steps of its statement, and is
one that its handle's kind takes; a stray is one that this kind takes and the end of the
text does not. Without clones there are no strays. -/
theorem grammatical_iff_no_stray (commands : List Command) :
    (∀ (i : Nat) (statement : Statement), (reached commands).statements[i]? = some statement →
      ((Kind.root.run? statement.steps).isSome ↔
        ∀ before e after, (chronicle commands).events = before ++ e :: after →
          e.statement = i → ¬ Stray before e)) ∧
    (∀ before e after, (chronicle commands).events = before ++ e :: after →
      Grounded before e) ∧
    (∀ before e after, (chronicle commands).events = before ++ e :: after → Stray before e →
      Kind.root.run? ((eventsOn e.statement before).map Event.step) ≠ some e.kind) ∧
    ((∀ c ∈ commands, c.isClone = false) →
      ∀ (i : Nat) (statement : Statement), (reached commands).statements[i]? = some statement →
        (Kind.root.run? statement.steps).isSome) := by
  have logged := logged_run commands
  have traced := traced_run commands
  refine ⟨fun i statement h => ?_, traced.grounded, ?_, fun noClone i statement h => ?_⟩
  · rw [logged.steps i statement h]
    exact isSome_run?_eventsOn_iff i _
  · rintro before e after split ⟨k, atEnd, stuck⟩ same
    obtain ⟨_, _, _, follows⟩ := traced.grounded before e after split
    rw [atEnd, Option.some.injEq] at same
    simp [← same, stuck] at follows
  · rw [logged.steps i statement h]
    exact (unshared_run noClone).accepted i

/-- The two aliases write a chain in which the bound on edges follows a step to vertices. -/
theorem clone_breaks_grammar :
    (reached forkedRun).statements.map Statement.text = ["g.V().outE().outV().limit(5)"] ∧
      (reached forkedRun).statements.map (fun s => Kind.root.run? s.steps) = [none] := by
  decide +kernel

end Session

end Gremlin
