import Gremlin.Json.Numeral
import Gremlin.Json.QuotedText

/-!
# Reading scalars

Readers for strings, truth values, nulls and numbers of a wanted type, and the fault
of a value that is of another type.

Results:
1. `readText_shrinks`, `readInteger_shrinks` and the like: a scalar takes at least one
   character from the text.
-/

namespace Gremlin.Json

/-! ## What was not wanted -/

/-- The fault of a value that is not of the wanted type. A scalar is read first, and
shows its own faults; a list or an object is not entered. -/
def unexpected (wanted : Wanted) (cs : List Char) : Fault :=
  let scalar (found : Found) (rest : Except Fault (List Char)) : Fault :=
    match rest with
    | .error f => f
    | .ok rest => .before (.wrongType found wanted) rest
  let number (read : Except Fault (Numeral × List Char)) : Fault :=
    match read with
    | .error f => f
    | .ok (n, rest) => .before (.wrongType n.found wanted) rest
  match cs with
  | [] => .ends .value
  | 'n' :: rest => scalar .null (readWord ['u', 'l', 'l'] rest)
  | 't' :: rest => scalar (.boolean true) (readWord ['r', 'u', 'e'] rest)
  | 'f' :: rest => scalar (.boolean false) (readWord ['a', 'l', 's', 'e'] rest)
  | '-' :: rest => number (readNumeral true rest)
  | '"' :: rest =>
    match readString rest with
    | .error f => f
    | .ok (text, rest) => .before (.wrongType (.string (String.ofList text)) wanted) rest
  | '[' :: _ => .before (.wrongType .list wanted) cs
  | '\x7b' :: _ => .before (.wrongType .object wanted) cs
  | c :: _ => if c.isDigit then number (readNumeral false cs) else .within .noValue cs

/-! ## Scalars -/

/-- Takes a string. -/
def readText (wanted : Wanted) : Reader String := fun cs =>
  match skipBlanks cs with
  | '"' :: rest => (readString rest).map fun (text, rest) => (String.ofList text, rest)
  | cs => .error (unexpected wanted cs)

/-- Takes a truth value. -/
def readBoolean : Reader Bool := fun cs =>
  match skipBlanks cs with
  | 't' :: rest => (readWord ['r', 'u', 'e'] rest).map (true, ·)
  | 'f' :: rest => (readWord ['a', 'l', 's', 'e'] rest).map (false, ·)
  | cs => .error (unexpected .boolean cs)

/-- Takes a null. -/
def readNull : Reader Unit := fun cs =>
  match skipBlanks cs with
  | 'n' :: rest => (readWord ['u', 'l', 'l'] rest).map ((), ·)
  | cs => .error (unexpected .null cs)

/-- Takes a number. -/
def readNumber (wanted : Wanted) : Reader Numeral := fun cs =>
  match skipBlanks cs with
  | '-' :: rest => readNumeral true rest
  | cs => if startsWithDigit cs then readNumeral false cs else .error (unexpected wanted cs)

/-- Takes an integer of 64 bits. -/
def readInteger : Reader Int64 := fun cs =>
  match readNumber .integer cs with
  | .error f => .error f
  | .ok (.real d, rest) => .error (.before (.wrongType (.real d) .integer) rest)
  | .ok (.integer n, rest) =>
    if n < 0x8000000000000000 then .ok (.ofInt n, rest) else .error (.before (.wrongInteger n) rest)

/-- Takes a double; an integer will do. -/
def readDouble : Reader Double := fun cs =>
  (readNumber .real cs).map fun (n, rest) => (n.toDouble, rest)

/-! ## Lengths -/

theorem readText_shrinks {wanted : Wanted} : Shrinks (readText wanted) := by
  intro cs a rest h
  have blanks := skipBlanks_length_le cs
  unfold readText at h
  split at h
  · next rest' start =>
    obtain ⟨text, read⟩ := exists_ok_of_map h
    have := readString_shrinks read
    simp only [start, List.length_cons] at blanks
    omega
  · simp at h

theorem readBoolean_shrinks : Shrinks readBoolean := by
  intro cs a rest h
  have blanks := skipBlanks_length_le cs
  unfold readBoolean at h
  split at h
  · next rest' start =>
    have := readWord_length_le (eq_ok_of_map h)
    simp only [start, List.length_cons] at blanks
    omega
  · next rest' start =>
    have := readWord_length_le (eq_ok_of_map h)
    simp only [start, List.length_cons] at blanks
    omega
  · simp at h

theorem readNull_shrinks : Shrinks readNull := by
  intro cs a rest h
  have blanks := skipBlanks_length_le cs
  unfold readNull at h
  split at h
  · next rest' start =>
    have := readWord_length_le (eq_ok_of_map h)
    simp only [start, List.length_cons] at blanks
    omega
  · simp at h

theorem readNumber_shrinks {wanted : Wanted} : Shrinks (readNumber wanted) := by
  intro cs a rest h
  have blanks := skipBlanks_length_le cs
  unfold readNumber at h
  split at h
  · next rest' start =>
    have := readNumeral_shrinks h
    simp only [start, List.length_cons] at blanks
    omega
  · split at h
    · have := readNumeral_shrinks h
      omega
    · simp at h

theorem readInteger_shrinks : Shrinks readInteger := by
  intro cs a rest h
  unfold readInteger at h
  split at h
  · simp at h
  · simp at h
  · next n rest' taken =>
    have := readNumber_shrinks taken
    split at h
    · simp only [Except.ok.injEq, Prod.mk.injEq] at h
      rw [← h.2]
      exact this
    · simp at h

theorem readDouble_shrinks : Shrinks readDouble := by
  intro cs a rest h
  obtain ⟨n, read⟩ := exists_ok_of_map h
  exact readNumber_shrinks read

end Gremlin.Json
