import Gremlin.Proofs.Session.Lineage
import Mathlib.Data.Set.Function

/-!
# Independent statements

Two groups of commands that never name a handle of each other do not notice each other,
in whatever order they are mixed. A group that runs alone starts its statements at other
places in the order of creation, so the two runs agree up to a relocation of statements.
It is carried along the run: it says where the statements went that the handles of the
group show, and keeps different statements apart.

Results:
1. `source_of_bound`, `get?_of_outside`, `getElem?_of_outside`: what a command can touch.
2. `apart_run`: handles on one statement have names of one class.
3. `Relocation.exec`: related sessions answer alike and stay related.
4. `relocation_run`: the commands of one class are answered as if they were run alone.
5. `noninterference`: this, for the last session and for all orders of the commands.
-/

namespace Gremlin

/-! ## Definitions -/

/-- The names of the goals of a step. -/
def Step.goals {υ : Type} : Step String υ → List String
  | .endpoint _ goal => [goal]
  | _ => []

/-- All names of handles that a command mentions. -/
def Command.names : Command → List String
  | .new into | .withConfig into _ | .withJson into _ => [into]
  | .view h | .size h | .config h | .inspect h | .forget h => [h]
  | .same h other => [h, other]
  | .clone h into => [h, into]
  | .step h into asked => h :: into :: asked.goals

/-- Whether a command mentions names of a class only. -/
def Command.isWithin (names : String → Bool) (c : Command) : Bool := c.names.all names

/-- Whether no command mentions names of two classes. -/
def Parted (first : String → Bool) (commands : List Command) : Prop :=
  ∀ c ∈ commands, ∀ a ∈ c.names, ∀ b ∈ c.names, first a = first b

theorem Parted.other {first : String → Bool} {commands : List Command}
    (parted : Parted first commands) : Parted (fun name => !first name) commands :=
  fun c member a ha b hb => congrArg _ (parted c member a ha b hb)

/-- The same handle in a session that has its statements at other places. -/
def Handle.relocate (place : Nat → Nat) (handle : Handle) : Handle :=
  ⟨place handle.statement, handle.kind⟩

namespace Session

/-- Nothing that can be asked about handles with names of a class tells two sessions
apart: which of them there are, their kinds, texts and configurations, and which of them
show the same statement. -/
def Indistinct (names : String → Bool) (s t : Session) : Prop :=
  ∀ c, isObservation c = true → c.isWithin names = true → (s.exec c).1 = (t.exec c).1

/-- Handles on one statement have names of one class. -/
def Apart (first : String → Bool) (s : Session) : Prop :=
  ∀ (a b : String) (handle other : Handle), s.handles.get? a = some handle →
    s.handles.get? b = some other → handle.statement = other.statement → first a = first b

/-- The places of the statements that handles with names of a class show. -/
def shown (s : Session) (names : String → Bool) : Set Nat :=
  {i | ∃ name handle, names name = true ∧ s.handles.get? name = some handle ∧
    handle.statement = i}

/-- Two sessions agree on the handles with names of a class, but for the places of their
statements. -/
structure Relocation (names : String → Bool) (place : Nat → Nat) (s t : Session) : Prop where
  handles : ∀ {name : String}, names name = true →
    t.handles.get? name = (s.handles.get? name).map (Handle.relocate place)
  statements : ∀ {i : Nat}, i ∈ s.shown names → t.statements[place i]? = s.statements[i]?
  injective : Set.InjOn place (s.shown names)

/-- Two commands are answered alike, and lead to sessions that agree on the handles with names
of a class. -/
def Agree (names : String → Bool) (left right : Answer × Session) : Prop :=
  right.1 = left.1 ∧ ∃ place, Relocation names place left.2 right.2

/-! ## What a command can touch -/

section Touched

variable {s next : Session} {c : Command} {a : Answer} {e : Option Event}

theorem mem_names_of_opening {into : String} {r : Except Error Config}
    (opens : c.opening? = some (into, r)) : into ∈ c.names := by
  cases c with
  | new _ | withConfig _ _ | withJson _ _ =>
    rw [← (Prod.mk.inj (Option.some.inj opens)).1]
    exact List.mem_singleton_self _
  | _ => cases opens

/-- A handle was there before, or the command mentions its name and it shows a new
statement or one that a mentioned handle shows. -/
theorem source_of_bound (t : Transition s c a e next) {name : String} {handle : Handle}
    (bound : next.handles.get? name = some handle) :
    s.handles.get? name = some handle ∨ name ∈ c.names ∧
      (handle.statement = s.statements.length ∨ ∃ h ∈ c.names, ∃ held,
        s.handles.get? h = some held ∧ held.statement = handle.statement) := by
  cases t with
  | observed _ | refused => exact .inl bound
  | started opens =>
    rw [get?_start] at bound
    split at bound
    · next here =>
      cases bound
      exact .inr ⟨here ▸ mem_names_of_opening opens, .inl rfl⟩
    · exact .inl bound
  | forgotten | spent _ =>
    rw [Bindings.get?_erase] at bound
    exact .inl (get?_of_erased bound)
  | @cloned h into _ _ found _ =>
    rw [Bindings.get?_set] at bound
    split at bound
    · next here =>
      cases bound
      have held := (find?_eq_some_iff.1 found).1
      exact .inr ⟨by simp [Command.names, here], .inr ⟨h, by simp [Command.names], _, held, rfl⟩⟩
    · exact .inl bound
  | @appended h into _ _ _ _ _ found _ _ _ =>
    rw [get?_append] at bound
    split at bound
    · next here =>
      cases bound
      have held := (find?_eq_some_iff.1 found).1
      exact .inr ⟨by simp [Command.names, here], .inr ⟨h, by simp [Command.names], _, held, rfl⟩⟩
    · exact .inl (get?_of_erased bound)

/-- A command leaves the handles alone that it does not mention. -/
theorem get?_of_outside (t : Transition s c a e next) {name : String}
    (outside : name ∉ c.names) : next.handles.get? name = s.handles.get? name := by
  cases t with
  | observed _ | refused => rfl
  | started opens =>
    rw [get?_start, if_neg]
    rintro rfl
    exact outside (mem_names_of_opening opens)
  | forgotten | spent _ =>
    rw [Bindings.get?_erase, if_neg]
    rintro rfl
    exact outside List.mem_cons_self
  | cloned _ _ =>
    rw [Bindings.get?_set, if_neg]
    rintro rfl
    exact outside (List.mem_cons_of_mem _ List.mem_cons_self)
  | appended _ _ _ _ =>
    rw [get?_append, if_neg, if_neg]
    · rintro rfl
      exact outside List.mem_cons_self
    · rintro rfl
      exact outside (List.mem_cons_of_mem _ List.mem_cons_self)

/-- A command leaves the statements alone that no mentioned handle shows. -/
theorem getElem?_of_outside (t : Transition s c a e next) {i : Nat}
    (old : i < s.statements.length)
    (outside : ∀ name ∈ c.names, ∀ handle, s.handles.get? name = some handle →
      handle.statement ≠ i) : next.statements[i]? = s.statements[i]? := by
  cases t with
  | started _ => exact List.getElem?_append_left old
  | appended found _ _ _ =>
    rw [statements_append, getElem?_set_of_find? found, if_neg]
    exact outside _ List.mem_cons_self _ (find?_eq_some_iff.1 found).1
  | _ => rfl

end Touched

/-! ## Handles of one class -/

theorem Apart.keeps {first : String → Bool} {s next : Session} {g : Chronicle} {c : Command}
    {a : Answer} {e : Option Event} (t : Transition s c a e next)
    (parted : ∀ a ∈ c.names, ∀ b ∈ c.names, first a = first b) (traced : Traced s g)
    (apart : Apart first s) : Apart first next := by
  -- A new handle shares its statement with handles of its class only.
  have joins {x y : String} {handle other : Handle} (old : s.handles.get? x = some handle)
      (mentioned : y ∈ c.names)
      (comes : other.statement = s.statements.length ∨ ∃ h ∈ c.names, ∃ held,
        s.handles.get? h = some held ∧ held.statement = other.statement)
      (same : handle.statement = other.statement) : first x = first y := by
    rcases comes with new | ⟨h, asked, held, bound, on⟩
    · exact absurd (same.trans new) (Nat.ne_of_lt (traced.live old))
    · have shared := apart x h handle held old bound (same.trans on.symm)
      exact shared.trans (parted h asked y mentioned)
  intro x y handle other hx hy same
  rcases source_of_bound t hx with oldX | ⟨namedX, comesX⟩ <;>
    rcases source_of_bound t hy with oldY | ⟨namedY, comesY⟩
  · exact apart x y handle other oldX oldY same
  · exact joins oldX namedY comesY same
  · exact (joins oldY namedX comesX same.symm).symm
  · exact parted x namedX y namedY

theorem apart_run {first : String → Bool} {commands : List Command}
    (parted : Parted first commands) : Apart first (reached commands) := by
  have all := run_invariant (P := fun s g => Traced s g ∧ Apart first s)
    (fun c => ∀ a ∈ c.names, ∀ b ∈ c.names, first a = first b)
    (fun within t ⟨traced, apart⟩ => ⟨traced.keeps t, apart.keeps t within traced⟩) parted
    ⟨traced_run [], fun _ _ _ _ bound => by simp at bound⟩
  exact all.2

/-! ## Relocation -/

namespace Relocation

variable {names : String → Bool} {place : Nat → Nat} {s t : Session}

theorem mem_shown {name : String} {handle : Handle} (named : names name = true)
    (bound : s.handles.get? name = some handle) : handle.statement ∈ s.shown names :=
  ⟨name, handle, named, bound, rfl⟩

/-- Handles of the class show the same statement exactly if they do after the relocation. -/
theorem place_eq_iff (r : Relocation names place s t) {i j : Nat} (hi : i ∈ s.shown names)
    (hj : j ∈ s.shown names) : place i = place j ↔ i = j :=
  ⟨fun same => r.injective hi hj same, congrArg place⟩

theorem find? (r : Relocation names place s t) {name : String} (named : names name = true) :
    t.find? name = (s.find? name).map fun (handle, statement) =>
      (handle.relocate place, statement) := by
  unfold Session.find?
  rw [r.handles named]
  cases bound : s.handles.get? name with
  | none => rfl
  | some handle =>
    simp only [Option.map_some, Option.bind_eq_bind, Option.bind_some, Handle.relocate]
    rw [r.statements (mem_shown named bound)]
    cases s.statements[handle.statement]? <;> rfl

theorem observe (r : Relocation names place s t) {name : String} (named : names name = true)
    {answer answer' : Handle → Statement → Answer}
    (same : ∀ handle statement, s.find? name = some (handle, statement) →
      answer' (handle.relocate place) statement = answer handle statement) :
    t.observe name answer' = s.observe name answer := by
  unfold Session.observe
  rw [r.find? named]
  cases found : s.find? name with
  | none => rfl
  | some pair => exact same pair.1 pair.2 found

theorem goal (r : Relocation names place s t) (h : String) {name : String}
    (named : names name = true) : t.goal h name = s.goal h name := by
  unfold Session.goal
  rw [r.find? named]
  cases s.find? name <;> rfl

/-- The arguments of a step that mentions names of the class are made alike. -/
theorem resolve (r : Relocation names place s t) (h : String) {asked : AskedStep}
    (named : ∀ name ∈ asked.goals, names name = true) : t.resolve h asked = s.resolve h asked := by
  cases asked with
  | endpoint e name =>
    simp only [Session.resolve, r.goal h (named name (List.mem_singleton_self _))]
  | _ => rfl

/-- The handles change alike, and show no statements that they did not show before. -/
theorem rebound (r : Relocation names place s t) {handles handles' : Bindings Handle}
    (same : ∀ {name : String}, names name = true →
      handles'.get? name = (handles.get? name).map (Handle.relocate place))
    (within : ∀ {name : String} {handle : Handle}, names name = true →
      handles.get? name = some handle → handle.statement ∈ s.shown names) :
    Relocation names place { s with handles := handles } { t with handles := handles' } := by
  have fewer : ({ s with handles := handles } : Session).shown names ⊆ s.shown names := by
    rintro i ⟨name, handle, named, bound, rfl⟩
    exact within named bound
  exact ⟨same, fun member => r.statements (fewer member), r.injective.mono fewer⟩

theorem erased (r : Relocation names place s t) (h : String) :
    Relocation names place { s with handles := s.handles.erase h }
      { t with handles := t.handles.erase h } := by
  refine r.rebound (fun {name} named => ?_) (fun {name handle} named bound => ?_)
  · rw [Bindings.get?_erase, Bindings.get?_erase]
    split
    · rfl
    · exact r.handles named
  · rw [Bindings.get?_erase] at bound
    exact mem_shown named (get?_of_erased bound)

theorem cloned (r : Relocation names place s t) {h : String} (named : names h = true)
    {held : Handle} (bound : s.handles.get? h = some held) (into : String) :
    Relocation names place { s with handles := s.handles.set into held }
      { t with handles := t.handles.set into (held.relocate place) } := by
  refine r.rebound (fun {name} inside => ?_) (fun {name handle} inside shows => ?_)
  · rw [Bindings.get?_set, Bindings.get?_set]
    split
    · rfl
    · exact r.handles inside
  · rw [Bindings.get?_set] at shows
    split at shows
    · cases shows
      exact mem_shown named bound
    · exact mem_shown inside shows

theorem started (r : Relocation names place s t)
    (live : ∀ {name : String} {handle : Handle}, s.handles.get? name = some handle →
      handle.statement < s.statements.length) (into : String) (c : Config) :
    Relocation names (Function.update place s.statements.length t.statements.length)
      (s.start into c).2 (t.start into c).2 := by
  have old {i : Nat} (member : i ∈ s.shown names) : i < s.statements.length := by
    obtain ⟨name, handle, -, bound, rfl⟩ := member
    exact live bound
  have stays {i : Nat} (member : i ∈ s.shown names) :
      Function.update place s.statements.length t.statements.length i = place i :=
    Function.update_of_ne (Nat.ne_of_lt (old member)) _ _
  have moved {i : Nat} (member : i ∈ s.shown names) : place i < t.statements.length := by
    have same := r.statements member
    rw [List.getElem?_eq_getElem (old member)] at same
    exact (List.getElem?_eq_some_iff.1 same).1
  have cases_of {i : Nat} (member : i ∈ (s.start into c).2.shown names) :
      i = s.statements.length ∨ i ∈ s.shown names := by
    obtain ⟨name, handle, named, bound, rfl⟩ := member
    rw [get?_start] at bound
    split at bound
    · cases bound
      exact .inl rfl
    · exact .inr (mem_shown named bound)
  refine ⟨fun {name} named => ?_, fun {i} member => ?_, fun i hi j hj same => ?_⟩
  · rw [get?_start, get?_start]
    split
    · simp [Handle.relocate]
    · rw [r.handles named]
      cases bound : s.handles.get? name with
      | none => rfl
      | some handle => simp [Handle.relocate, stays (mem_shown named bound)]
  · rcases cases_of member with rfl | before
    · simp
    · rw [stays before, statements_start, statements_start,
        List.getElem?_append_left (moved before), List.getElem?_append_left (old before)]
      exact r.statements before
  · rcases cases_of hi with rfl | beforeI <;> rcases cases_of hj with rfl | beforeJ
    · rfl
    · rw [Function.update_self, stays beforeJ] at same
      exact absurd same.symm (Nat.ne_of_lt (moved beforeJ))
    · rw [Function.update_self, stays beforeI] at same
      exact absurd same (Nat.ne_of_lt (moved beforeI))
    · rw [stays beforeI, stays beforeJ] at same
      exact r.injective beforeI beforeJ same

theorem appended (r : Relocation names place s t) {h into : String} (named : names h = true)
    {handle : Handle} {statement : Statement}
    (found : s.find? h = some (handle, statement)) (kind : Kind) (step : AppendedStep) :
    Relocation names place (s.append h into handle statement kind step).2
      (t.append h into (handle.relocate place) statement kind step).2 := by
  have bound := (find?_eq_some_iff.1 found).1
  have here := mem_shown named bound
  have found' : t.find? h = some (handle.relocate place, statement) := by
    rw [r.find? named, found]
    rfl
  have fewer : (s.append h into handle statement kind step).2.shown names ⊆ s.shown names := by
    rintro i ⟨name, held, inside, bound, rfl⟩
    rw [get?_append] at bound
    split at bound
    · cases bound
      exact here
    · exact mem_shown inside (get?_of_erased bound)
  refine ⟨fun {name} inside => ?_, fun {i} member => ?_, r.injective.mono fewer⟩
  · rw [get?_append, get?_append]
    split
    · rfl
    · split
      · rfl
      · exact r.handles inside
  · rw [statements_append, statements_append, getElem?_set_of_find? found,
      getElem?_set_of_find? found', r.statements (fewer member)]
    simp only [Handle.relocate, r.place_eq_iff here (fewer member)]

theorem start? (r : Relocation names place s t)
    (live : ∀ {name : String} {handle : Handle}, s.handles.get? name = some handle →
      handle.statement < s.statements.length) (into : String) (made : Except Error Config) :
    Agree names (s.start? into made) (t.start? into made) := by
  cases made with
  | error e => exact ⟨rfl, _, r⟩
  | ok c => exact ⟨rfl, _, r.started live into c⟩

theorem same (r : Relocation names place s t) {h other : String} (named : names h = true)
    (named' : names other = true) :
    Agree names (s.exec (.same h other)) (t.exec (.same h other)) := by
  refine ⟨r.observe named fun handle _ found => ?_, _, r⟩
  refine r.observe named' fun handle' _ found' => ?_
  have shown := mem_shown named (find?_eq_some_iff.1 found).1
  have shown' := mem_shown named' (find?_eq_some_iff.1 found').1
  simp only [Handle.relocate, Bool.beq_eq_decide_eq, r.place_eq_iff shown shown']

theorem forget (r : Relocation names place s t) {h : String} (named : names h = true) :
    Agree names (s.exec (.forget h)) (t.exec (.forget h)) := by
  simp only [Session.exec, r.find? named]
  cases s.find? h with
  | none => exact ⟨rfl, _, r⟩
  | some _ => exact ⟨rfl, _, r.erased h⟩

theorem clone (r : Relocation names place s t) {h : String} (named : names h = true)
    (into : String) : Agree names (s.clone h into) (t.clone h into) := by
  simp only [Session.clone, r.find? named]
  cases found : s.find? h with
  | none => exact ⟨rfl, _, r⟩
  | some pair =>
    obtain ⟨handle, statement⟩ := pair
    simp only [Option.map_some, Handle.relocate]
    split
    · exact ⟨rfl, _, r.cloned named (find?_eq_some_iff.1 found).1 into⟩
    · exact ⟨rfl, _, r⟩

theorem step (r : Relocation names place s t) {h : String} (named : names h = true)
    (into : String) {asked : AskedStep} (goals : ∀ name ∈ asked.goals, names name = true) :
    Agree names (s.step h into asked) (t.step h into asked) := by
  simp only [Session.step, r.find? named, r.resolve h goals]
  cases found : s.find? h with
  | none => exact ⟨rfl, _, r⟩
  | some pair =>
    obtain ⟨handle, statement⟩ := pair
    cases s.resolve h asked with
    | error refusal => exact ⟨rfl, _, r⟩
    | ok made =>
      simp only [Option.map_some]
      cases grammatical : handle.kind.next? made with
      | none =>
        simp only [Handle.relocate, grammatical]
        exact ⟨rfl, _, r⟩
      | some kind =>
        simp only [Handle.relocate, grammatical]
        cases made.fault? with
        | some e => exact ⟨rfl, _, r.erased h⟩
        | none => exact ⟨rfl, _, r.appended named found kind made⟩

/-- Related sessions answer the commands of the class alike and stay related. -/
theorem exec (r : Relocation names place s t)
    (live : ∀ {name : String} {handle : Handle}, s.handles.get? name = some handle →
      handle.statement < s.statements.length) {c : Command} (within : c.isWithin names = true) :
    Agree names (s.exec c) (t.exec c) := by
  have named : ∀ name ∈ c.names, names name = true := List.all_eq_true.1 within
  cases c with
  | new into => exact r.start? live into (.ok {})
  | withConfig into c => exact r.start? live into c.validate
  | withJson into json => exact r.start? live into (Config.load json)
  | view h | size h | config h | inspect h =>
    exact ⟨r.observe (named h List.mem_cons_self) fun _ _ _ => rfl, _, r⟩
  | same h other =>
    exact r.same (named h List.mem_cons_self) (named other (by simp [Command.names]))
  | forget h => exact r.forget (named h List.mem_cons_self)
  | clone h into => exact r.clone (named h List.mem_cons_self) into
  | step h into asked =>
    exact r.step (named h List.mem_cons_self) into fun name member =>
      named name (List.mem_cons_of_mem _ (List.mem_cons_of_mem _ member))

/-- A command on the other class changes nothing for the class. -/
theorem outside {next : Session} {g : Chronicle} {c : Command} {a : Answer} {e : Option Event}
    (r : Relocation names place s t) (traced : Traced s g) (apart : Apart names s)
    (moves : Transition s c a e next) (foreign : ∀ name ∈ c.names, names name = false) :
    Relocation names place next t := by
  have unmentioned {name : String} (named : names name = true) : name ∉ c.names := by
    intro mentioned
    simp [foreign name mentioned] at named
  have same : next.shown names = s.shown names := by
    ext i
    constructor
    · rintro ⟨name, handle, named, bound, on⟩
      rw [get?_of_outside moves (unmentioned named)] at bound
      exact ⟨name, handle, named, bound, on⟩
    · rintro ⟨name, handle, named, bound, on⟩
      rw [← get?_of_outside moves (unmentioned named)] at bound
      exact ⟨name, handle, named, bound, on⟩
  refine ⟨fun {name} named => ?_, fun {i} member => ?_, same ▸ r.injective⟩
  · rw [get?_of_outside moves (unmentioned named)]
    exact r.handles named
  · rw [same] at member
    rw [r.statements member]
    obtain ⟨name, handle, named, bound, rfl⟩ := member
    refine (getElem?_of_outside moves (traced.live bound) ?_).symm
    intro other mentioned held shows on
    have classes := apart other name held handle shows bound on
    rw [foreign other mentioned, named] at classes
    cases classes

end Relocation

/-! ## Runs -/

theorem foreign_of_parted {first : String → Bool} {c : Command}
    (parted : ∀ a ∈ c.names, ∀ b ∈ c.names, first a = first b)
    (notWithin : c.isWithin first = false) : ∀ name ∈ c.names, first name = false := by
  intro name member
  by_contra named
  have all : c.isWithin first = true := List.all_eq_true.2 fun other inside =>
    (parted other inside name member).trans (Bool.eq_true_of_not_eq_false named)
  simp [all] at notWithin

/-- The commands of a class are answered as if they were run alone, and lead to the same
handles of the class, on statements that may have been started at other places. -/
theorem relocation_run {first : String → Bool} {commands : List Command}
    (parted : Parted first commands) :
    transcript (commands.filter (·.isWithin first)) =
        (transcript commands).filter (·.1.isWithin first) ∧
      ∃ place, Relocation first place (reached commands)
        (reached (commands.filter (·.isWithin first))) := by
  induction commands using List.reverseRecOn with
  | nil => exact ⟨rfl, id, fun _ => rfl, fun _ => rfl, fun _ _ _ _ same => same⟩
  | append_singleton commands c ih =>
    have before : Parted first commands := fun d member =>
      parted d (List.mem_append_left _ member)
    have here := parted c (List.mem_append_right _ (List.mem_singleton_self c))
    obtain ⟨same, place, r⟩ := ih before
    have traced := traced_run commands
    rw [List.filter_append, transcript_snoc, List.filter_append, reached_snoc, ← same]
    cases within : c.isWithin first with
    | true =>
      obtain ⟨answered, moved⟩ := r.exec traced.live within
      simp only [within, List.filter_cons_of_pos, List.filter_nil, transcript_snoc, reached_snoc,
        answered]
      exact ⟨trivial, moved⟩
    | false =>
      simp only [within, Bool.false_eq_true, not_false_eq_true, List.filter_cons_of_neg,
        List.filter_nil, List.append_nil]
      exact ⟨trivial, place, r.outside traced (apart_run before) (transition _ c)
        (foreign_of_parted here within)⟩

theorem indistinct_alone {first : String → Bool} {commands : List Command}
    (parted : Parted first commands) :
    Indistinct first (reached commands) (reached (commands.filter (·.isWithin first))) := by
  obtain ⟨_, place, r⟩ := relocation_run parted
  exact fun c _ within => (r.exec (traced_run commands).live within).1.symm

/-! ## Two classes -/

theorem isSome_find?_iff {s : Session} {name : String} :
    (s.find? name).isSome = true ↔ (s.exec (.view name)).1 ≠ .refused .noHandle := by
  simp only [exec, observe]
  cases s.find? name <;> simp

/-- Handles of two classes do not show the same statement. -/
theorem same_of_apart {first : String → Bool} {s : Session} (apart : Apart first s) {a b : String}
    (crossing : first a ≠ first b) :
    (s.exec (.same a b)).1 =
      if (s.find? a).isSome && (s.find? b).isSome then .same false else .refused .noHandle := by
  simp only [exec, observe]
  cases foundA : s.find? a with
  | none => rfl
  | some pair =>
    cases foundB : s.find? b with
    | none => rfl
    | some pair' =>
      have other : pair.1.statement ≠ pair'.1.statement := fun same =>
        crossing (apart a b pair.1 pair'.1 (find?_eq_some_iff.1 foundA).1
          (find?_eq_some_iff.1 foundB).1 same)
      simp [other]

/-- Two orders of the commands of two classes lead to sessions that nothing tells apart. -/
theorem indistinct_orders {first : String → Bool} {commands other : List Command}
    (parted : Parted first commands) (parted' : Parted first other)
    (sameFirst : other.filter (·.isWithin first) = commands.filter (·.isWithin first))
    (sameSecond : other.filter (·.isWithin fun name => !first name) =
      commands.filter (·.isWithin fun name => !first name)) :
    Indistinct (fun _ => true) (reached commands) (reached other) := by
  have alike {names : String → Bool} (own : Parted names commands) (own' : Parted names other)
      (same : other.filter (·.isWithin names) = commands.filter (·.isWithin names)) :
      Indistinct names (reached commands) (reached other) := fun c looks within =>
    (indistinct_alone own c looks within).trans
      (same ▸ (indistinct_alone own' c looks within).symm)
  have one := alike parted parted' sameFirst
  have two := alike parted.other parted'.other sameSecond
  intro c looks _
  by_cases inFirst : c.isWithin first = true
  · exact one c looks inFirst
  by_cases inSecond : c.isWithin (fun name => !first name) = true
  · exact two c looks inSecond
  cases c with
  | same a b =>
    have crossing : first a ≠ first b := fun same => by
      cases h : first b <;> simp [Command.isWithin, Command.names, same, h] at inFirst inSecond
    -- Either name is of one class, and that class sees whether there is a handle.
    have bound (name : String) : ((reached commands).find? name).isSome =
        ((reached other).find? name).isSome := by
      have viewed : ((reached commands).exec (.view name)).1 =
          ((reached other).exec (.view name)).1 := by
        cases h : first name with
        | true => exact one _ rfl (by simp [Command.isWithin, Command.names, h])
        | false => exact two _ rfl (by simp [Command.isWithin, Command.names, h])
      rw [Bool.eq_iff_iff, isSome_find?_iff, isSome_find?_iff, viewed]
    rw [same_of_apart (apart_run parted) crossing, same_of_apart (apart_run parted') crossing,
      bound a, bound b]
  | view h | size h | config h | inspect h =>
    cases h' : first h <;> simp [Command.isWithin, Command.names, h'] at inFirst inSecond
  | _ => cases looks

/-- If no command mentions names of both classes, the commands of one class are answered
as if they were run alone, and nothing tells the handles of the class apart from those of
that run. So every order of the commands that keeps the order within each class is
answered alike, and leads to a session that nothing tells apart. -/
theorem noninterference (first : String → Bool) {commands : List Command}
    (parted : Parted first commands) :
    transcript (commands.filter (·.isWithin first)) =
      (transcript commands).filter (·.1.isWithin first) ∧
    Indistinct first (reached commands) (reached (commands.filter (·.isWithin first))) ∧
    ∀ other, Parted first other →
      other.filter (·.isWithin first) = commands.filter (·.isWithin first) →
      other.filter (·.isWithin fun name => !first name) =
        commands.filter (·.isWithin fun name => !first name) →
      (transcript other).filter (·.1.isWithin first) =
        (transcript commands).filter (·.1.isWithin first) ∧
      (transcript other).filter (·.1.isWithin fun name => !first name) =
        (transcript commands).filter (·.1.isWithin fun name => !first name) ∧
      Indistinct (fun _ => true) (reached commands) (reached other) := by
  refine ⟨(relocation_run parted).1, indistinct_alone parted,
    fun other parted' sameFirst sameSecond => ⟨?_, ?_, ?_⟩⟩
  · rw [← (relocation_run parted').1, ← (relocation_run parted).1, sameFirst]
  · rw [← (relocation_run parted'.other).1, ← (relocation_run parted.other).1, sameSecond]
  · exact indistinct_orders parted parted' sameFirst sameSecond

/-- The names of the first of two statements. -/
def isOuter (name : String) : Bool := name == "q" || name == "a"

/-- A statement with an alias, and another one that is built, used and dropped in between. -/
def mixedRun : List Command :=
  [.new "p", .new "q", .step "q" "q" (.add .edge none), .step "p" "p" (.start .vertex none),
    .clone "q" "a", .clone "p" "p2", .step "a" "a" (.endpoint .target "q"), .forget "p",
    .step "q" "q" (.mark "x"), .same "p2" "p", .same "a" "q"]

/-- The same commands, the second statement last. -/
def sortedRun : List Command :=
  mixedRun.filter (·.isWithin isOuter) ++ mixedRun.filter (·.isWithin fun name => !isOuter name)

/-- The first statement is numbered differently in the two orders, and nothing else. -/
theorem noninterference_mixed :
    Parted isOuter mixedRun ∧ Parted isOuter sortedRun ∧
    (transcript mixedRun).filter (·.1.isWithin isOuter) =
      transcript (mixedRun.filter (·.isWithin isOuter)) ∧
    (transcript (mixedRun.filter (·.isWithin isOuter))).map Prod.snd =
      [.handle .root "g", .handle .added "g.addE()", .handle .added "g.addE()",
        .handle .added "g.addE().to(g.addE())", .handle .added "g.addE().to(g.addE()).as('x')",
        .same true] ∧
    Indistinct (fun _ => true) (reached mixedRun) (reached sortedRun) ∧
    (reached mixedRun).handles.get? "q" = some ⟨1, .added⟩ ∧
    (reached sortedRun).handles.get? "q" = some ⟨0, .added⟩ := by
  have mixed : Parted isOuter mixedRun := by
    unfold Parted
    decide
  have sorted : Parted isOuter sortedRun := by
    unfold Parted
    decide
  obtain ⟨alone, _, orders⟩ := noninterference isOuter mixed
  exact ⟨mixed, sorted, alone.symm, by decide +kernel,
    (orders sortedRun sorted rfl rfl).2.2, by decide, by decide⟩

end Session

end Gremlin
