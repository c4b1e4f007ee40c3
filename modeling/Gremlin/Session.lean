import Gremlin.Json.Decode
import Gremlin.Kind
import Gremlin.Session.Bindings
import Gremlin.Statement

/-!
# Sessions

A session builds statements through named handles. A handle shows one statement and
what that statement yielded when the handle last took part in a step. Several
handles can show the same statement: a step through one of them is seen through all,
but leaves the kinds of the others as they were.

A step uses up the handle it is asked of and puts its result under a name, which may
be the same one. What is refused leaves the session as it was, except that a step
which picks no items has used up its handle already.

Results:
1. `exec_observe`: commands that only look change nothing.
-/

namespace Gremlin

/-! ## State -/

/-- One view of a statement. -/
structure Handle where
  /-- The place of the statement in the order of creation. -/
  statement : Nat
  /-- What the statement yields, as seen through this handle. -/
  kind : Kind
  deriving DecidableEq, Repr

/-- All statements in order of creation, and the handles by name. -/
structure Session where
  statements : List Statement := []
  handles : Bindings Handle := .empty

/-! ## Commands and answers -/

/-- A step as a caller asks for it: the goal is named, and a predicate is yet to be
made. -/
abbrev AskedStep := Step String HasValue.Request

/-- What can be asked of a session. -/
inductive Command
  /-- Starts a statement in the default configuration. -/
  | new (into : String)
  /-- Starts a statement in a configuration. -/
  | withConfig (into : String) (config : Config)
  /-- Starts a statement in a configuration that is written in JSON. -/
  | withJson (into : String) (json : String)
  /-- Shows the kind and the text of a handle. -/
  | view (h : String)
  /-- Measures the text of a handle. -/
  | size (h : String)
  /-- Shows the configuration of a handle. -/
  | config (h : String)
  /-- Shows a handle in one line for inspection. -/
  | inspect (h : String)
  /-- Tells whether two handles show the same statement. -/
  | same (h other : String)
  /-- Drops a handle. -/
  | forget (h : String)
  /-- Makes another handle that shows the same statement. -/
  | clone (h into : String)
  /-- Appends a step. -/
  | step (h into : String) (asked : AskedStep)
  deriving Repr

/-- Why a command is refused. -/
inductive Refusal
  /-- A name stands for no handle. -/
  | noHandle
  /-- The step or the clone is not possible at the handle's kind. -/
  | ungrammatical
  /-- The arguments or the configuration are wrong. -/
  | failed (e : Error)
  deriving DecidableEq, Repr

/-- What a session answers. -/
inductive Answer
  | handle (kind : Kind) (text : String)
  | size (bytes : Nat) (isEmpty : Bool)
  | config (c : Config)
  | inspected (text : String)
  | same (b : Bool)
  | forgotten (name : String)
  | refused (r : Refusal)
  deriving DecidableEq, Repr

namespace Session

/-! ## Looking at handles -/

/-- The handle of a name, and the statement it shows. -/
def find? (s : Session) (name : String) : Option (Handle × Statement) := do
  let handle ← s.handles.get? name
  let statement ← s.statements[handle.statement]?
  return (handle, statement)

/-- Answers from one handle. -/
def observe (s : Session) (name : String) (answer : Handle → Statement → Answer) : Answer :=
  match s.find? name with
  | none => .refused .noHandle
  | some (handle, statement) => answer handle statement

/-- The line in which a handle is shown for inspection. -/
def inspection (k : Kind) (text : String) : String :=
  "Traversal \x7b kind: " ++ Text.inspect k.name ++ ", text: " ++ Text.inspect text ++ " \x7d"

/-! ## Changes -/

/-- Starts a statement and puts a handle on it under a name. -/
def start (s : Session) (into : String) (c : Config) : Answer × Session :=
  let statement := Statement.ofConfig c
  (.handle .root statement.text,
    { statements := s.statements ++ [statement],
      handles := s.handles.set into ⟨s.statements.length, .root⟩ })

/-- Starts a statement if there is a configuration for it. -/
def start? (s : Session) (into : String) : Except Error Config → Answer × Session
  | .ok c => s.start into c
  | .error e => (.refused (.failed e), s)

/-- Puts another handle on the statement that a handle shows. -/
def clone (s : Session) (h into : String) : Answer × Session :=
  match s.find? h with
  | none => (.refused .noHandle, s)
  | some (handle, statement) =>
    if handle.kind.isChained then
      (.handle handle.kind statement.text, { s with handles := s.handles.set into handle })
    else (.refused .ungrammatical, s)

/-- The goal of a step asked of a handle: another handle that yields vertices, or
the element just added. Its statement is taken as it is now. -/
def goal (s : Session) (h name : String) : Except Refusal Statement :=
  if name = h then .error .noHandle
  else
    match s.find? name with
    | none => .error .noHandle
    | some (handle, statement) =>
      if handle.kind.yieldsVertices then .ok statement else .error .ungrammatical

/-- Makes the arguments of a step asked of a handle. -/
def resolve (s : Session) (h : String) : AskedStep → Except Refusal AppendedStep
  | .has name value => (value.build.mapError .failed).map (.has name)
  | .endpoint e name => (s.goal h name).map (.endpoint e)
  | .start e id => .ok (.start e id)
  | .add e label => .ok (.add e label)
  | .move m label => .ok (.move m label)
  | .hasLabel label => .ok (.hasLabel label)
  | .hasId id => .ok (.hasId id)
  | .property name value => .ok (.property name value)
  | .project p items => .ok (.project p items)
  | .mark name => .ok (.mark name)
  | .modulate key => .ok (.modulate key)
  | .limit count => .ok (.limit count)
  | .group => .ok .group
  | .general g => .ok (.general g)

/-- Appends a step to the statement of a handle, which becomes the handle `into`. -/
def append (s : Session) (h into : String) (handle : Handle) (statement : Statement)
    (kind : Kind) (step : AppendedStep) : Answer × Session :=
  let longer := statement.append step
  (.handle kind longer.text,
    { statements := s.statements.set handle.statement longer,
      handles := (s.handles.erase h).set into ⟨handle.statement, kind⟩ })

/-- Asks a handle for a step. Its arguments are made first, then the grammar is
checked, and then the step itself. -/
def step (s : Session) (h into : String) (asked : AskedStep) : Answer × Session :=
  match s.find? h with
  | none => (.refused .noHandle, s)
  | some (handle, statement) =>
    match s.resolve h asked with
    | .error r => (.refused r, s)
    | .ok step =>
      match handle.kind.next? step with
      | none => (.refused .ungrammatical, s)
      | some kind =>
        match step.fault? with
        | some e => (.refused (.failed e), { s with handles := s.handles.erase h })
        | none => s.append h into handle statement kind step

/-! ## Running -/

/-- Carries out a command. -/
def exec (s : Session) : Command → Answer × Session
  | .new into => s.start into {}
  | .withConfig into c => s.start? into c.validate
  | .withJson into json => s.start? into (Config.load json)
  | .view h => (s.observe h fun handle statement => .handle handle.kind statement.text, s)
  | .size h =>
    (s.observe h fun _ statement => .size statement.text.utf8ByteSize statement.text.isEmpty, s)
  | .config h => (s.observe h fun _ statement => .config statement.config, s)
  | .inspect h =>
    (s.observe h fun handle statement => .inspected (inspection handle.kind statement.text), s)
  | .same h other =>
    (s.observe h fun handle _ => s.observe other fun handle' _ =>
      .same (handle.statement == handle'.statement), s)
  | .forget h =>
    match s.find? h with
    | none => (.refused .noHandle, s)
    | some _ => (.forgotten h, { s with handles := s.handles.erase h })
  | .clone h into => s.clone h into
  | .step h into asked => s.step h into asked

/-- Carries out commands one after the other; gives all answers and the last state. -/
def run (s : Session) : List Command → List Answer × Session
  | [] => ([], s)
  | command :: rest =>
    let (answer, next) := s.exec command
    let (answers, last) := next.run rest
    (answer :: answers, last)

/-! ## Lemmas -/

/-- Whether a command only looks. -/
def isObservation : Command → Bool
  | .view _ | .size _ | .config _ | .inspect _ | .same _ _ => true
  | _ => false

theorem exec_observe {s : Session} {c : Command} (h : isObservation c = true) :
    (s.exec c).2 = s := by
  cases c with
  | view _ | size _ | config _ | inspect _ | same _ _ => rfl
  | _ => simp [isObservation] at h

end Session

end Gremlin
