import Gremlin.Json.Reader

/-!
# Reading strings

Strings are read up to their closing quote, with all escapes resolved. Strings whose
content does not matter are only skipped, and may then name half of a surrogate pair.

Results:
1. `readString_shrinks`, `skipString_length_lt`: a string takes its closing quote from
   the text, so a reader that goes on behind it comes to an end.
-/

namespace Gremlin.Json

/-! ## Escapes -/

/-- The value of a hexadecimal digit. -/
def hexDigit? (c : Char) : Option Nat :=
  if '0' ≤ c ∧ c ≤ '9' then some (c.toNat - '0'.toNat)
  else if 'a' ≤ c ∧ c ≤ 'f' then some (c.toNat - 'a'.toNat + 10)
  else if 'A' ≤ c ∧ c ≤ 'F' then some (c.toNat - 'A'.toNat + 10)
  else none

/-- The value of four hexadecimal digits. -/
def hexFour? (a b c d : Char) : Option Nat := do
  let a ← hexDigit? a
  let b ← hexDigit? b
  let c ← hexDigit? c
  let d ← hexDigit? d
  return ((a * 16 + b) * 16 + c) * 16 + d

/-- The fault of what should be four hexadecimal digits: it shows behind the fourth
byte, if there are so many. -/
def hexFault (cs : List Char) : Fault :=
  if size cs < 4 then .ends .string else ⟨.badEscape, size cs - 4⟩

/-- Takes four hexadecimal digits. -/
def readHex : Reader Nat
  | a :: b :: c :: d :: rest =>
    match hexFour? a b c d with
    | some n => .ok (n, rest)
    | none => .error (hexFault (a :: b :: c :: d :: rest))
  | cs => .error (hexFault cs)

/-- Whether a code unit is the first half of a surrogate pair. -/
def isLeading (n : Nat) : Bool := 0xd800 ≤ n && n ≤ 0xdbff

/-- Whether a code unit is the second half of a surrogate pair. -/
def isTrailing (n : Nat) : Bool := 0xdc00 ≤ n && n ≤ 0xdfff

/-- Takes the second half of a surrogate pair, which must follow at once. -/
def readTrailing (leading : Nat) : Reader Char
  | [] => .error (.ends .string)
  | ['\\'] => .error (.ends .string)
  | '\\' :: 'u' :: rest =>
    match readHex rest with
    | .error f => .error f
    | .ok (trailing, rest) =>
      if isTrailing trailing then
        .ok (.ofNat ((leading - 0xd800) * 0x400 + (trailing - 0xdc00) + 0x10000), rest)
      else .error (.before .loneSurrogate rest)
  | '\\' :: c :: rest => .error (.within .halfSurrogatePair (c :: rest))
  | c :: rest => .error (.within .halfSurrogatePair (c :: rest))

/-- Takes the digits of a code point, and the second half if it is a pair. -/
def readCodePoint (cs : List Char) : Except Fault (Char × List Char) :=
  match readHex cs with
  | .error f => .error f
  | .ok (n, rest) =>
    if isTrailing n then .error (.before .loneSurrogate rest)
    else if isLeading n then readTrailing n rest
    else .ok (.ofNat n, rest)

/-- The characters that stand for another one behind a backslash. -/
def simpleEscape? : Char → Option Char
  | '"' => some '"'
  | '\\' => some '\\'
  | '/' => some '/'
  | 'b' => some '\x08'
  | 'f' => some '\x0c'
  | 'n' => some '\n'
  | 'r' => some '\r'
  | 't' => some '\t'
  | _ => none

/-- Takes what follows a backslash. -/
def readEscape : Reader Char
  | [] => .error (.ends .string)
  | c :: rest =>
    if c = 'u' then readCodePoint rest
    else match simpleEscape? c with
      | some d => .ok (d, rest)
      | none => .error (.within .badEscape (c :: rest))

/-- Drops what follows a backslash; any four hexadecimal digits will do. -/
def skipEscape : List Char → Except Fault (List Char)
  | [] => .error (.ends .string)
  | c :: rest =>
    if c = 'u' then (readHex rest).map Prod.snd
    else match simpleEscape? c with
      | some _ => .ok rest
      | none => .error (.within .badEscape (c :: rest))

/-! ## Lengths -/

theorem readHex_shrinks : Shrinks readHex := by
  intro cs a rest h
  unfold readHex at h
  split at h
  · split at h
    · simp only [Except.ok.injEq, Prod.mk.injEq] at h
      simp [← h.2]
      omega
    · simp at h
  · simp at h

theorem readTrailing_shrinks {n : Nat} : Shrinks (readTrailing n) := by
  intro cs a rest h
  unfold readTrailing at h
  split at h
  · simp at h
  · simp at h
  · split at h
    · simp at h
    · next rest' _ taken =>
      have := readHex_shrinks taken
      split at h
      · simp only [Except.ok.injEq, Prod.mk.injEq] at h
        simp only [List.length_cons, ← h.2]
        omega
      · simp at h
  · simp at h
  · simp at h

theorem readCodePoint_shrinks : Shrinks readCodePoint := by
  intro cs a rest h
  unfold readCodePoint at h
  split at h
  · simp at h
  · next n rest' taken =>
    have := readHex_shrinks taken
    split at h
    · simp at h
    · split at h
      · have := readTrailing_shrinks h
        omega
      · simp only [Except.ok.injEq, Prod.mk.injEq] at h
        simp only [← h.2]
        omega

theorem readEscape_shrinks : Shrinks readEscape := by
  intro cs a rest h
  unfold readEscape at h
  split at h
  · simp at h
  · split at h
    · have := readCodePoint_shrinks h
      simp only [List.length_cons]
      omega
    · split at h
      · simp only [Except.ok.injEq, Prod.mk.injEq] at h
        simp [← h.2]
      · simp at h

theorem skipEscape_length_lt {cs rest : List Char} (h : skipEscape cs = .ok rest) :
    rest.length < cs.length := by
  unfold skipEscape at h
  split at h
  · simp at h
  · next c rest' =>
    split at h
    · cases taken : readHex rest' with
      | error f => simp [taken, Except.map] at h
      | ok pair =>
        have : pair.2.length < rest'.length := readHex_shrinks taken
        simp only [taken, Except.map, Except.ok.injEq] at h
        simp only [List.length_cons, ← h]
        omega
    · split at h
      · simp only [Except.ok.injEq] at h
        simp [h]
      · simp at h

/-! ## Strings -/

/-- Whether a character may not stand in a string as it is. -/
def isControl (c : Char) : Bool := c.toNat < 0x20

/-- Takes the rest of a string and its closing quote. -/
def readString (cs : List Char) : Except Fault (List Char × List Char) :=
  match cs with
  | [] => .error (.ends .string)
  | c :: rest =>
    if c = '"' then .ok ([], rest)
    else if c = '\\' then
      match _taken : readEscape rest with
      | .error f => .error f
      | .ok (d, behind) =>
        match readString behind with
        | .error f => .error f
        | .ok (text, rest) => .ok (d :: text, rest)
    else if isControl c then .error (.within .controlCharacter (c :: rest))
    else
      match readString rest with
      | .error f => .error f
      | .ok (text, rest) => .ok (c :: text, rest)
termination_by cs.length
decreasing_by
  · have := readEscape_shrinks _taken
    simp only [List.length_cons]
    omega
  · simp

/-- Drops the rest of a string and its closing quote. A control character shows in
front of it here. -/
def skipString (cs : List Char) : Except Fault (List Char) :=
  match cs with
  | [] => .error (.ends .string)
  | c :: rest =>
    if c = '"' then .ok rest
    else if c = '\\' then
      match _taken : skipEscape rest with
      | .error f => .error f
      | .ok behind =>
        skipString behind
    else if isControl c then .error (.before .controlCharacter (c :: rest))
    else skipString rest
termination_by cs.length
decreasing_by
  · have := skipEscape_length_lt _taken
    simp only [List.length_cons]
    omega
  · simp

theorem readString_shrinks : Shrinks readString := by
  intro cs a rest h
  fun_induction readString cs generalizing a rest with
  | case1 => simp at h
  | case2 =>
    simp only [Except.ok.injEq, Prod.mk.injEq] at h
    simp [← h.2]
  | case3 => simp at h
  | case4 => simp at h
  | case5 rest' d behind taken text rest'' inner _ ih =>
    have := readEscape_shrinks taken
    have := ih inner
    simp only [Except.ok.injEq, Prod.mk.injEq] at h
    simp only [List.length_cons, ← h.2]
    omega
  | case6 => simp at h
  | case7 => simp at h
  | case8 c rest' _ _ _ text rest'' inner ih =>
    have := ih inner
    simp only [Except.ok.injEq, Prod.mk.injEq] at h
    simp only [List.length_cons, ← h.2]
    omega

theorem skipString_length_lt {cs rest : List Char} (h : skipString cs = .ok rest) :
    rest.length < cs.length := by
  fun_induction skipString cs with
  | case1 => simp at h
  | case2 =>
    simp only [Except.ok.injEq] at h
    simp [← h]
  | case3 => simp at h
  | case4 rest' behind taken _ ih =>
    have := skipEscape_length_lt taken
    have := ih h
    simp only [List.length_cons]
    omega
  | case5 => simp at h
  | case6 c rest' _ _ _ ih =>
    have := ih h
    simp only [List.length_cons]
    omega

end Gremlin.Json
