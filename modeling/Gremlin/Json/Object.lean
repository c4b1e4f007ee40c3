import Gremlin.Json.Skip

/-!
# Reading objects

An object is read member by member into a state that says which fields have been
seen. A field must not occur twice; what is not a field is skipped.

Results:
1. `readField_shrinks`, `skipField_shrinks`: a member takes characters from the text.
-/

namespace Gremlin.Json

/-! ## Members -/

/-- Takes the colon behind a key. -/
def readColon (cs : List Char) : Except Fault (List Char) :=
  match skipBlanks cs with
  | [] => .error (.ends .object)
  | ':' :: rest => .ok rest
  | rest => .error (.within .noColon rest)

/-- Takes a key, behind its opening quote. -/
def readKeyText (cs : List Char) : Except Fault (Option String × List Char) :=
  (readString cs).map fun (text, rest) => (some (String.ofList text), rest)

/-- Takes the key of the next member, or the brace that closes the object. -/
def readKey (first : Bool) (cs : List Char) : Except Fault (Option String × List Char) :=
  match skipBlanks cs with
  | [] => .error (.ends .object)
  | '\x7d' :: rest => .ok (none, rest)
  | c :: rest =>
    if first then
      if c = '"' then readKeyText rest else .error (.within .keyNotString (c :: rest))
    else if c = ',' then
      match skipBlanks rest with
      | [] => .error (.ends .value)
      | '"' :: rest => readKeyText rest
      | '\x7d' :: rest => .error (.within .trailingComma ('\x7d' :: rest))
      | rest => .error (.within .keyNotString rest)
    else .error (.within .noCommaOrBrace (c :: rest))

/-- A fault of an object as a whole, found in front of what is left. It shows behind
the blanks that follow, and behind the brace if that is next. -/
def objectFault (cause : Cause) (cs : List Char) : Fault :=
  match skipBlanks cs with
  | '\x7d' :: rest => .before cause rest
  | rest => .before cause rest

/-- Takes the value of a field that must not have been seen before. -/
def readField {α σ : Type} (name : String) (seen : Option α) (read : Reader α) (put : α → σ) :
    Reader σ := fun cs =>
  if seen.isSome then .error (objectFault (.repeatedField name) cs)
  else
    match readColon cs with
    | .error f => .error f
    | .ok rest => (read rest).map fun (a, rest) => (put a, rest)

/-- Drops the value of a field that is not known. -/
def skipField {σ : Type} (state : σ) : Reader σ := fun cs =>
  match readColon cs with
  | .error f => .error f
  | .ok rest => (skipValue rest).map (state, ·)

/-! ## Lengths -/

theorem readColon_length_lt {cs rest : List Char} (h : readColon cs = .ok rest) :
    rest.length < cs.length := by
  have blanks := skipBlanks_length_le cs
  unfold readColon at h
  split at h
  · simp at h
  · next rest' start =>
    simp only [Except.ok.injEq] at h
    simp only [start, List.length_cons, h] at blanks
    omega
  · simp at h

theorem readKeyText_shrinks : Shrinks readKeyText := by
  intro cs a rest h
  obtain ⟨⟨text, behind⟩, read, eq⟩ := map_eq_ok.1 h
  simp only [Prod.mk.injEq] at eq
  rw [← eq.2]
  exact readString_shrinks read

theorem readKey_shrinks {first : Bool} : Shrinks (readKey first) := by
  intro cs a rest h
  have blanks := skipBlanks_length_le cs
  unfold readKey at h
  split at h
  · simp at h
  · next rest' start =>
    simp only [Except.ok.injEq, Prod.mk.injEq] at h
    simp only [start, List.length_cons, h.2] at blanks
    omega
  · next c rest' _ start =>
    simp only [start, List.length_cons] at blanks
    split at h
    · split at h
      · have := readKeyText_shrinks h
        omega
      · simp at h
    · split at h
      · have inner := skipBlanks_length_le rest'
        split at h
        · simp at h
        · next start' =>
          have := readKeyText_shrinks h
          simp only [start', List.length_cons] at inner
          omega
        · simp at h
        · simp at h
      · simp at h

theorem readField_shrinks {α σ : Type} {name : String} {seen : Option α} {read : Reader α}
    {put : α → σ} (shrinks : Shrinks read) : Shrinks (readField name seen read put) := by
  intro cs a rest h
  unfold readField at h
  split at h
  · simp at h
  · split at h
    · simp at h
    · next rest' colon =>
      have := readColon_length_lt colon
      obtain ⟨b, taken⟩ := exists_ok_of_map h
      have := shrinks taken
      omega

theorem skipField_shrinks {σ : Type} {state : σ} : Shrinks (skipField state) := by
  intro cs a rest h
  unfold skipField at h
  split at h
  · simp at h
  · next behind colon =>
    have := readColon_length_lt colon
    have := skipValue_length_lt (eq_ok_of_map h)
    omega

/-! ## Whole objects -/

/-- Takes the members of an object and its closing brace. The state says which
fields have been seen. -/
def readMembers {σ : Type} (field : String → σ → Reader σ)
    (shrinks : ∀ name state, Shrinks (field name state)) (first : Bool) (state : σ)
    (cs : List Char) : Except Fault (σ × List Char) :=
  match _key : readKey first cs with
  | .error f => .error f
  | .ok (none, rest) => .ok (state, rest)
  | .ok (some name, rest) =>
    match _taken : field name state rest with
    | .error f => .error f
    | .ok (state, rest) => readMembers field shrinks false state rest
termination_by cs.length
decreasing_by
  have := readKey_shrinks _key
  have := shrinks _ _ _taken
  omega

end Gremlin.Json
