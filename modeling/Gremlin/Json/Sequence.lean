import Gremlin.Json.Reader

/-!
# Reading lists

A list is read element by element, either until it closes or for a fixed number of
elements.

Results:
1. `readElements_length_le`: what is left behind a list is no longer than the list was.
-/

namespace Gremlin.Json

/-! ## Elements -/

/-- Goes to the next element, or takes the bracket that closes the list. -/
def nextElement (first : Bool) (cs : List Char) : Except Fault (Bool × List Char) :=
  match skipBlanks cs with
  | [] => .error (.ends .list)
  | ']' :: rest => .ok (false, rest)
  | c :: rest =>
    if first then .ok (true, c :: rest)
    else if c = ',' then
      match skipBlanks rest with
      | [] => .error (.ends .value)
      | ']' :: rest => .error (.within .trailingComma (']' :: rest))
      | rest => .ok (true, rest)
    else .error (.within .noCommaOrBracket (c :: rest))

/-- Takes the bracket that closes a list which can have no more elements. -/
def closeList (cs : List Char) : Except Fault (List Char) :=
  match skipBlanks cs with
  | [] => .error (.ends .list)
  | ']' :: rest => .ok rest
  | ',' :: rest =>
    match skipBlanks rest with
    | ']' :: rest => .error (.within .trailingComma (']' :: rest))
    | rest => .error (.within .trailingCharacters rest)
  | rest => .error (.within .trailingCharacters rest)

/-- Takes the next element of a list and goes on behind it. If the list closes instead, goes
on behind the bracket. -/
def readNext {α β : Type} (first : Bool) (read : Reader α) (absent : Reader β)
    (present : α → Reader β) : Reader β := fun cs =>
  match nextElement first cs with
  | .error f => .error f
  | .ok (false, rest) => absent rest
  | .ok (true, rest) =>
    match read rest with
    | .error f => .error f
    | .ok (a, rest) => present a rest

/-! ## Lengths -/

theorem nextElement_length_le {first more : Bool} {cs rest : List Char}
    (h : nextElement first cs = .ok (more, rest)) : rest.length ≤ cs.length := by
  have blanks := skipBlanks_length_le cs
  unfold nextElement at h
  split at h
  · simp at h
  · next behind start =>
    simp only [Except.ok.injEq, Prod.mk.injEq] at h
    simp only [start, List.length_cons, h.2] at blanks
    omega
  · next c behind _ start =>
    simp only [start, List.length_cons] at blanks
    split at h
    · simp only [Except.ok.injEq, Prod.mk.injEq] at h
      simp [← h.2, blanks]
    · split at h
      · have inner := skipBlanks_length_le behind
        split at h
        · simp at h
        · simp at h
        · simp only [Except.ok.injEq, Prod.mk.injEq] at h
          rw [← h.2]
          omega
      · simp at h

/-! ## Whole lists -/

/-- Takes the elements of a list and its closing bracket. -/
def readElements {α : Type} (read : Reader α) (shrinks : Shrinks read) (first : Bool)
    (cs : List Char) : Except Fault (List α × List Char) :=
  match _next : nextElement first cs with
  | .error f => .error f
  | .ok (false, rest) => .ok ([], rest)
  | .ok (true, rest) =>
    match _taken : read rest with
    | .error f => .error f
    | .ok (a, rest) =>
      match readElements read shrinks false rest with
      | .error f => .error f
      | .ok (as, rest) => .ok (a :: as, rest)
termination_by cs.length
decreasing_by
  have := nextElement_length_le _next
  have := shrinks _taken
  omega

theorem readElements_length_le {α : Type} {read : Reader α} {shrinks : Shrinks read}
    {first : Bool} {cs rest : List Char} {as : List α}
    (h : readElements read shrinks first cs = .ok (as, rest)) : rest.length ≤ cs.length := by
  fun_induction readElements read shrinks first cs generalizing as rest with
  | case1 => simp at h
  | case2 first cs behind next =>
    have := nextElement_length_le next
    simp only [Except.ok.injEq, Prod.mk.injEq] at h
    rw [← h.2]
    exact this
  | case3 => simp at h
  | case4 => simp at h
  | case5 first cs behind next a behind' taken as' final inner ih =>
    have := nextElement_length_le next
    have := shrinks taken
    have := ih inner
    simp only [Except.ok.injEq, Prod.mk.injEq] at h
    rw [← h.2]
    omega

end Gremlin.Json
