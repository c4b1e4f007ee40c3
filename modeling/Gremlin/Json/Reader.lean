import Gremlin.Json.Fault

/-!
# Readers

A reader takes what is left of a text and gives a value and what is left behind it,
or a fault.

Results:
1. `exists_ok_of_map`, `eq_ok_of_map`: what is left behind a changed value is what was
   left behind the value.
-/

namespace Gremlin.Json

/-! ## Readers -/

/-- Takes a value from the front of a text. -/
abbrev Reader (α : Type) := List Char → Except Fault (α × List Char)

/-- A reader that leaves fewer characters than it was given. -/
def Shrinks {α : Type} (read : Reader α) : Prop :=
  ∀ {cs a rest}, read cs = .ok (a, rest) → rest.length < cs.length

/-- The four characters that can stand between tokens. -/
def isBlank (c : Char) : Bool := c == ' ' || c == '\n' || c == '\t' || c == '\r'

/-- Drops blanks. -/
def skipBlanks : List Char → List Char
  | [] => []
  | c :: rest => if isBlank c then skipBlanks rest else c :: rest

/-- Takes the remaining characters of a word such as `null`. -/
def readWord : List Char → List Char → Except Fault (List Char)
  | [], cs => .ok cs
  | _ :: _, [] => .error (.ends .value)
  | w :: word, c :: rest =>
    if c = w then readWord word rest else .error (.within .brokenWord (c :: rest))

/-! ## Lengths -/

theorem map_eq_ok {α β ε : Type} {x : Except ε α} {f : α → β} {b : β} :
    x.map f = .ok b ↔ ∃ a, x = .ok a ∧ f a = b := by
  cases x <;> simp [Except.map]

theorem exists_ok_of_map {α β ε : Type} {x : Except ε (α × List Char)} {make : α → β} {b : β}
    {rest : List Char} (h : x.map (fun (a, rest) => (make a, rest)) = .ok (b, rest)) :
    ∃ a, x = .ok (a, rest) := by
  obtain ⟨⟨a, behind⟩, taken, eq⟩ := map_eq_ok.1 h
  simp only [Prod.mk.injEq] at eq
  exact ⟨a, eq.2 ▸ taken⟩

theorem eq_ok_of_map {α ε : Type} {x : Except ε (List Char)} {a b : α} {rest : List Char}
    (h : x.map (a, ·) = .ok (b, rest)) : x = .ok rest := by
  obtain ⟨r, taken, eq⟩ := map_eq_ok.1 h
  simp only [Prod.mk.injEq] at eq
  rw [taken, eq.2]

theorem skipBlanks_length_le (cs : List Char) : (skipBlanks cs).length ≤ cs.length := by
  induction cs with
  | nil => simp [skipBlanks]
  | cons c rest ih =>
    by_cases h : isBlank c
    · simp only [skipBlanks, h, if_true, List.length_cons]
      omega
    · simp [skipBlanks, h]

theorem readWord_length_le {word cs rest : List Char} (h : readWord word cs = .ok rest) :
    rest.length ≤ cs.length := by
  fun_induction readWord word cs with
  | case1 cs =>
    simp only [Except.ok.injEq] at h
    exact Nat.le_of_eq (congrArg List.length h.symm)
  | case2 => simp at h
  | case3 w word rest' ih =>
    have := ih h
    simp only [List.length_cons]
    omega
  | case4 => simp at h

end Gremlin.Json
