import Gremlin.Json.Numeral
import Gremlin.Json.QuotedText

/-!
# Skipping values

A value whose content does not matter is only checked to be JSON: its numbers may
have any size, its strings may name half of a surrogate pair, and it may be nested
to any depth. The brackets that are open are kept in a list, so depth costs no
stack.

Results:
1. `skipValue_length_lt`: a skipped value takes at least one character.
-/

namespace Gremlin.Json

/-! ## Numbers -/

/-- Drops the digits of an exponent, behind its letter. -/
def skipExponent (cs : List Char) : Except Fault (List Char) :=
  let behind := (exponentSign cs).2
  if startsWithDigit behind then .ok (behindDigits behind)
  else .error (.within .badNumber behind)

/-- Drops an exponent if there is one. -/
def skipScale (cs : List Char) : Except Fault (List Char) :=
  match cs with
  | 'e' :: rest | 'E' :: rest => skipExponent rest
  | _ => .ok cs

/-- Drops a number, behind its sign. -/
def skipNumeral (cs : List Char) : Except Fault (List Char) :=
  match cs with
  | [] => .error (.within .badNumber [])
  | c :: rest =>
    if !c.isDigit then .error (.within .badNumber (c :: rest))
    else if c = '0' && startsWithDigit rest then .error (.within .badNumber rest)
    else
      match behindDigits rest with
      | '.' :: behind =>
        if startsWithDigit behind then skipScale (behindDigits behind)
        else .error (.within .badNumber behind)
      | behind => skipScale behind

/-! ## Values -/

/-- An open bracket. -/
inductive Bracket
  | list | object
  deriving DecidableEq, Repr

/-- Drops a key and its colon. -/
def skipKey (cs : List Char) : Except Fault (List Char) :=
  match skipBlanks cs with
  | [] => .error (.ends .object)
  | '"' :: rest =>
    match skipString rest with
    | .error f => .error f
    | .ok rest =>
      match skipBlanks rest with
      | [] => .error (.ends .object)
      | ':' :: rest => .ok rest
      | rest => .error (.within .noColon rest)
  | rest => .error (.within .keyNotString rest)

/-- A value that is not nested, or the bracket that opens one. -/
def skipScalar (cs : List Char) : Except Fault (Option Bracket × List Char) :=
  match skipBlanks cs with
  | [] => .error (.ends .value)
  | 'n' :: rest => (readWord ['u', 'l', 'l'] rest).map (none, ·)
  | 't' :: rest => (readWord ['r', 'u', 'e'] rest).map (none, ·)
  | 'f' :: rest => (readWord ['a', 'l', 's', 'e'] rest).map (none, ·)
  | '"' :: rest => (skipString rest).map (none, ·)
  | '-' :: rest => (skipNumeral rest).map (none, ·)
  | '[' :: rest => .ok (some .list, rest)
  | '\x7b' :: rest => .ok (some .object, rest)
  | c :: rest =>
    if c.isDigit then (skipNumeral (c :: rest)).map (none, ·)
    else .error (.within .noValue (c :: rest))

/-- What follows an open bracket: the first value of the nested ones starts, or the
bracket is closed at once. -/
def skipOpening (b : Bracket) (cs : List Char) : Except Fault (Bool × List Char) :=
  match b, skipBlanks cs with
  | .list, [] => .error (.ends .list)
  | .list, ']' :: rest => .ok (false, rest)
  | .list, rest => .ok (true, rest)
  | .object, [] => .error (.ends .object)
  | .object, '\x7d' :: rest => .ok (false, rest)
  | .object, rest => (skipKey rest).map (true, ·)

/-- What follows a nested value: the next one starts, or the bracket is closed. -/
def skipBetween (b : Bracket) (cs : List Char) : Except Fault (Bool × List Char) :=
  match b, skipBlanks cs with
  | .list, [] => .error (.ends .list)
  | .list, ',' :: rest => .ok (true, rest)
  | .list, ']' :: rest => .ok (false, rest)
  | .list, rest => .error (.within .noCommaOrBracket rest)
  | .object, [] => .error (.ends .object)
  | .object, ',' :: rest => (skipKey rest).map (true, ·)
  | .object, '\x7d' :: rest => .ok (false, rest)
  | .object, rest => .error (.within .noCommaOrBrace rest)

/-! ## Lengths -/

theorem skipExponent_length_le {cs rest : List Char} (h : skipExponent cs = .ok rest) :
    rest.length ≤ cs.length := by
  unfold skipExponent at h
  have sign := exponentSign_length_le cs
  have behind := behindDigits_length_le (exponentSign cs).2
  dsimp only at h
  split at h
  · simp only [Except.ok.injEq] at h
    rw [← h]
    omega
  · simp at h

theorem skipScale_length_le {cs rest : List Char} (h : skipScale cs = .ok rest) :
    rest.length ≤ cs.length := by
  unfold skipScale at h
  split at h
  · have := skipExponent_length_le h
    simp only [List.length_cons]
    omega
  · have := skipExponent_length_le h
    simp only [List.length_cons]
    omega
  · simp only [Except.ok.injEq] at h
    exact Nat.le_of_eq (congrArg List.length h.symm)

theorem skipNumeral_length_lt {cs rest : List Char} (h : skipNumeral cs = .ok rest) :
    rest.length < cs.length := by
  unfold skipNumeral at h
  split at h
  · simp at h
  · next c rest' =>
    split at h
    · simp at h
    · split at h
      · simp at h
      · have behind := behindDigits_length_le rest'
        simp only [List.length_cons]
        split at h
        · next inner taken =>
          rw [taken] at behind
          split at h
          · have scale := skipScale_length_le h
            have digits := behindDigits_length_le inner
            simp only [List.length_cons] at behind
            omega
          · simp at h
        · have scale := skipScale_length_le h
          omega

theorem skipKey_length_lt {cs rest : List Char} (h : skipKey cs = .ok rest) :
    rest.length < cs.length := by
  have blanks := skipBlanks_length_le cs
  unfold skipKey at h
  split at h
  · simp at h
  · next rest' start =>
    rw [start] at blanks
    split at h
    · simp at h
    · next inner taken =>
      have string := skipString_length_lt taken
      have colon := skipBlanks_length_le inner
      split at h
      · simp at h
      · next eq =>
        rw [eq] at colon
        simp only [Except.ok.injEq] at h
        simp only [List.length_cons, h] at blanks colon
        omega
      · simp at h
  · simp at h

theorem skipScalar_length_lt {cs rest : List Char} {b : Option Bracket}
    (h : skipScalar cs = .ok (b, rest)) : rest.length < cs.length := by
  have blanks := skipBlanks_length_le cs
  unfold skipScalar at h
  split at h
  · simp at h
  · next rest' start =>
    have := readWord_length_le (eq_ok_of_map h)
    simp only [start, List.length_cons] at blanks
    omega
  · next rest' start =>
    have := readWord_length_le (eq_ok_of_map h)
    simp only [start, List.length_cons] at blanks
    omega
  · next rest' start =>
    have := readWord_length_le (eq_ok_of_map h)
    simp only [start, List.length_cons] at blanks
    omega
  · next rest' start =>
    have := skipString_length_lt (eq_ok_of_map h)
    simp only [start, List.length_cons] at blanks
    omega
  · next rest' start =>
    have := skipNumeral_length_lt (eq_ok_of_map h)
    simp only [start, List.length_cons] at blanks
    omega
  · next rest' start =>
    simp only [Except.ok.injEq, Prod.mk.injEq] at h
    simp only [start, List.length_cons, h.2] at blanks
    omega
  · next rest' start =>
    simp only [Except.ok.injEq, Prod.mk.injEq] at h
    simp only [start, List.length_cons, h.2] at blanks
    omega
  · next c rest' _ _ _ _ _ _ _ start =>
    split at h
    · have := skipNumeral_length_lt (eq_ok_of_map h)
      rw [start] at blanks
      omega
    · simp at h

theorem skipOpening_length_le {cs rest : List Char} {b : Bracket} {more : Bool}
    (h : skipOpening b cs = .ok (more, rest)) : rest.length ≤ cs.length := by
  have blanks := skipBlanks_length_le cs
  unfold skipOpening at h
  split at h
  · simp at h
  · next start =>
    simp only [Except.ok.injEq, Prod.mk.injEq] at h
    simp only [start, List.length_cons, h.2] at blanks
    omega
  · simp only [Except.ok.injEq, Prod.mk.injEq] at h
    rw [← h.2]
    exact blanks
  · simp at h
  · next start =>
    simp only [Except.ok.injEq, Prod.mk.injEq] at h
    simp only [start, List.length_cons, h.2] at blanks
    omega
  · have := skipKey_length_lt (eq_ok_of_map h)
    omega

theorem skipBetween_length_lt {cs rest : List Char} {b : Bracket} {more : Bool}
    (h : skipBetween b cs = .ok (more, rest)) : rest.length < cs.length := by
  have blanks := skipBlanks_length_le cs
  unfold skipBetween at h
  split at h
  · simp at h
  · next start =>
    simp only [Except.ok.injEq, Prod.mk.injEq] at h
    simp only [start, List.length_cons, h.2] at blanks
    omega
  · next start =>
    simp only [Except.ok.injEq, Prod.mk.injEq] at h
    simp only [start, List.length_cons, h.2] at blanks
    omega
  · simp at h
  · simp at h
  · next start =>
    have := skipKey_length_lt (eq_ok_of_map h)
    simp only [start, List.length_cons] at blanks
    omega
  · next start =>
    simp only [Except.ok.injEq, Prod.mk.injEq] at h
    simp only [start, List.length_cons, h.2] at blanks
    omega
  · simp at h

/-! ## Nested values -/

mutual

/-- Drops a value and what closes the open brackets around it. -/
def skipInside (outer : List Bracket) (cs : List Char) : Except Fault (List Char) :=
  match _start : skipScalar cs with
  | .error f => .error f
  | .ok (none, rest) => skipBehind outer rest
  | .ok (some b, rest) =>
    match _opened : skipOpening b rest with
    | .error f => .error f
    | .ok (true, rest) => skipInside (b :: outer) rest
    | .ok (false, rest) => skipBehind outer rest
termination_by cs.length
decreasing_by
  · have := skipScalar_length_lt _start
    omega
  · have := skipScalar_length_lt _start
    have := skipOpening_length_le _opened
    omega
  · have := skipScalar_length_lt _start
    have := skipOpening_length_le _opened
    omega

/-- Drops what follows a value up to where the open brackets around it close. -/
def skipBehind (outer : List Bracket) (cs : List Char) : Except Fault (List Char) :=
  match outer with
  | [] => .ok cs
  | b :: outer =>
    match _between : skipBetween b cs with
    | .error f => .error f
    | .ok (true, rest) => skipInside (b :: outer) rest
    | .ok (false, rest) => skipBehind outer rest
termination_by cs.length
decreasing_by
  · exact skipBetween_length_lt _between
  · exact skipBetween_length_lt _between

end

/-- Drops a value. -/
def skipValue (cs : List Char) : Except Fault (List Char) := skipInside [] cs

mutual

theorem skipInside_length_lt {outer : List Bracket} {cs rest : List Char}
    (h : skipInside outer cs = .ok rest) : rest.length < cs.length := by
  rw [skipInside] at h
  split at h
  · simp at h
  · next taken =>
    have := skipScalar_length_lt taken
    have := skipBehind_length_le h
    omega
  · next taken =>
    have := skipScalar_length_lt taken
    split at h
    · simp at h
    · next opened =>
      have := skipOpening_length_le opened
      have := skipInside_length_lt h
      omega
    · next opened =>
      have := skipOpening_length_le opened
      have := skipBehind_length_le h
      omega
termination_by cs.length

theorem skipBehind_length_le {outer : List Bracket} {cs rest : List Char}
    (h : skipBehind outer cs = .ok rest) : rest.length ≤ cs.length := by
  unfold skipBehind at h
  split at h
  · simp only [Except.ok.injEq] at h
    exact Nat.le_of_eq (congrArg List.length h.symm)
  · split at h
    · simp at h
    · next between =>
      have := skipBetween_length_lt between
      have := skipInside_length_lt h
      omega
    · next between =>
      have := skipBetween_length_lt between
      have := skipBehind_length_le h
      omega
termination_by cs.length

end

theorem skipValue_length_lt {cs rest : List Char} (h : skipValue cs = .ok rest) :
    rest.length < cs.length :=
  skipInside_length_lt h

end Gremlin.Json
