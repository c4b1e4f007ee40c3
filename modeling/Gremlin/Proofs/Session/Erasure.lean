import Gremlin.Proofs.Session.Chronicle

/-!
# Refusals and observations leave no trace

Looking at a handle changes nothing, and neither does a command that is refused, with one
exception: a step that picks no items has used up its handle when it fails. So a script
can be rid of all that was refused or only looked, where such a step leaves behind that
its handle is dropped, and the rest of the script is none the wiser.

Results:
1. `exec_of_refused`: refused commands change nothing, unless they have spent a handle.
2. `residue_exec`: what is left of one command leads to the same session.
3. `residue_run`: what is left of a script is answered as before and leads to the same
   session.
-/

namespace Gremlin

/-! ## Definitions -/

/-- The handle that a refused command has used up: the one that was asked for a step
which picks items and got none. -/
def Command.spends? : Command → Answer → Option String
  | .step h _ (.project _ _), .refused (.failed (.emptyArgumentList _)) => some h
  | _, _ => none

/-- Whether a command was refused. -/
def Answer.isRefusal : Answer → Bool
  | .refused _ => true
  | _ => false

/-- What is left of a command with its answer. -/
def residue : Command × Answer → List (Command × Answer)
  | (c, a) =>
    match c.spends? a with
    | some h => [(.forget h, .forgotten h)]
    | none => if Session.isObservation c || a.isRefusal then [] else [(c, a)]

namespace Session

/-- What is left of a script: the commands that were neither refused nor only looked, and
the handles that refused commands have used up. -/
def residueFrom (s : Session) (commands : List Command) : List Command :=
  ((s.transcriptFrom commands).flatMap residue).map Prod.fst

/-- What is left of a script that is run from the beginning. -/
def residueScript (commands : List Command) : List Command := residueFrom {} commands

/-! ## One command -/

/-- A step that picks items only fails if there are none, and then drops its handle. -/
theorem exec_of_spends {s : Session} {c : Command} {h : String}
    (spent : c.spends? (s.exec c).1 = some h) :
    s.exec (.forget h) = (.forgotten h, (s.exec c).2) := by
  cases c with
  | step asker into asked =>
    cases asked with
    | project p items =>
      cases found : s.find? asker with
      | none => simp [exec, step, found, Command.spends?] at spent
      | some pair =>
        obtain ⟨handle, statement⟩ := pair
        have resolved : s.resolve asker (.project p items) = .ok (.project p items) := rfl
        cases grammatical : handle.kind.next? (.project p items : AppendedStep) with
        | none => simp [exec, step, found, resolved, grammatical, Command.spends?] at spent
        | some kind =>
          cases sound : (Step.project p items : AppendedStep).fault? with
          | none =>
            simp [exec, step, found, resolved, grammatical, sound, append,
              Command.spends?] at spent
          | some e =>
            simp only [exec, step, found, resolved, grammatical, sound] at spent ⊢
            cases e with
            | emptyArgumentList name =>
              cases spent
              simp [found]
            | _ => cases spent
    | _ => cases spent
  | _ => cases spent

/-- Refused commands change nothing, unless they have spent a handle. -/
theorem exec_of_refused {s : Session} {c : Command} (refused : (s.exec c).1.isRefusal = true)
    (kept : c.spends? (s.exec c).1 = none) : (s.exec c).2 = s := by
  have t := transition s c
  generalize (s.exec c).1 = a at t refused kept
  generalize (s.exec c).2 = next at t ⊢
  generalize s.event? c = e at t
  cases t with
  | observed _ | refused => rfl
  | spent _ => cases kept
  | _ => cases refused

/-- A command leaves nothing, itself, or that a handle is dropped. -/
theorem residue_cases (c : Command) (a : Answer) :
    (∃ h, c.spends? a = some h ∧ residue (c, a) = [(.forget h, .forgotten h)]) ∨
    (c.spends? a = none ∧ (isObservation c = true ∨ a.isRefusal = true) ∧ residue (c, a) = []) ∨
    (isObservation c = false ∧ a.isRefusal = false ∧ residue (c, a) = [(c, a)]) := by
  cases spent : c.spends? a with
  | some h => exact .inl ⟨h, rfl, by simp [residue, spent]⟩
  | none =>
    by_cases idle : (isObservation c || a.isRefusal) = true
    · exact .inr (.inl ⟨rfl, Bool.or_eq_true_iff.1 idle, by simp [residue, spent, idle]⟩)
    · have busy := Bool.or_eq_false_iff.1 (Bool.eq_false_iff.2 idle)
      exact .inr (.inr ⟨busy.1, busy.2, by simp [residue, spent, idle]⟩)

/-- What is left of a command is answered as before and leads to the same session. -/
theorem residue_exec (s : Session) (c : Command) :
    s.transcriptFrom ((residue (c, (s.exec c).1)).map Prod.fst) = residue (c, (s.exec c).1) ∧
      (s.run ((residue (c, (s.exec c).1)).map Prod.fst)).2 = (s.exec c).2 := by
  rcases residue_cases c (s.exec c).1 with
    ⟨h, spent, left⟩ | ⟨kept, idle, left⟩ | ⟨_, _, left⟩ <;> rw [left]
  · have forgets := exec_of_spends spent
    exact ⟨congrArg (fun done : Answer × Session => [(Command.forget h, done.1)]) forgets,
      congrArg Prod.snd forgets⟩
  · refine ⟨rfl, ?_⟩
    rcases idle with looks | refused
    · exact (exec_observe looks).symm
    · exact (exec_of_refused refused kept).symm
  · exact ⟨rfl, rfl⟩

/-! ## Scripts -/

theorem residueFrom_cons (s : Session) (c : Command) (rest : List Command) :
    s.residueFrom (c :: rest) =
      (residue (c, (s.exec c).1)).map Prod.fst ++ (s.exec c).2.residueFrom rest :=
  List.map_append

theorem residue_runFrom (s : Session) (commands : List Command) :
    s.transcriptFrom (s.residueFrom commands) = (s.transcriptFrom commands).flatMap residue ∧
      (s.run (s.residueFrom commands)).2 = (s.run commands).2 := by
  induction commands generalizing s with
  | nil => exact ⟨rfl, rfl⟩
  | cons c rest ih =>
    obtain ⟨sameHere, leadsHere⟩ := residue_exec s c
    obtain ⟨sameLater, leadsLater⟩ := ih (s.exec c).2
    rw [residueFrom_cons]
    constructor
    · rw [transcriptFrom_append, sameHere, leadsHere, sameLater]
      rfl
    · rw [run_append, leadsHere, leadsLater]
      rfl

/-- What is left of a command neither looks nor was refused. -/
theorem of_mem_residue {p q : Command × Answer} (left : q ∈ residue p) :
    isObservation q.1 = false ∧ q.2.isRefusal = false := by
  rcases residue_cases p.1 p.2 with
    ⟨h, _, whole⟩ | ⟨_, _, whole⟩ | ⟨busy, accepted, whole⟩ <;> rw [whole] at left
  · rw [List.mem_singleton.1 left]
    exact ⟨rfl, rfl⟩
  · cases left
  · rw [List.mem_singleton.1 left]
    exact ⟨busy, accepted⟩

/-- All that only looked and all that was refused can be taken out of a script, if the
handle of a step that failed for want of items is dropped instead. What is left of the
script is answered as before and leads to the same session, and there is nothing left in
it that looks or is refused. In particular no refused command changes the session but
such a step, and that one only drops its handle. -/
theorem residue_run (commands : List Command) :
    transcript (residueScript commands) = (transcript commands).flatMap residue ∧
    reached (residueScript commands) = reached commands ∧
    (∀ p ∈ transcript (residueScript commands),
      isObservation p.1 = false ∧ p.2.isRefusal = false) ∧
    (∀ c, isObservation c = true → ((reached commands).exec c).2 = reached commands) ∧
    (∀ c, ((reached commands).exec c).1.isRefusal = true →
      ((reached commands).exec c).2 =
        match c.spends? ((reached commands).exec c).1 with
        | some h => { reached commands with handles := (reached commands).handles.erase h }
        | none => reached commands) := by
  obtain ⟨same, leads⟩ := residue_runFrom {} commands
  refine ⟨same, leads, fun p member => ?_, fun c looks => exec_observe looks, fun c refused => ?_⟩
  · have left : p ∈ (transcript commands).flatMap residue := same ▸ member
    obtain ⟨q, _, of_q⟩ := List.mem_flatMap.1 left
    exact of_mem_residue of_q
  · cases spent : c.spends? ((reached commands).exec c).1 with
    | none => exact exec_of_refused refused spent
    | some h =>
      have forgets := exec_of_spends spent
      rw [exec] at forgets
      split at forgets
      · cases forgets
      · exact (congrArg Prod.snd forgets).symm

end Session

end Gremlin
