import Gremlin.Json.Reader
import Gremlin.Number.Scaling

/-!
# Reading numbers

A number without fraction and exponent is an integer if 64 bits can hold it, with
the sign of the number. Every other number is a double: its digits are collected in
an unsigned significand of 64 bits for as long as they fit; of the digits behind,
those before the point raise the exponent and the others are dropped.

Results:
1. `readNumeral_shrinks`: a number takes at least one digit from the text.
-/

namespace Gremlin.Json

/-! ## Numerals -/

/-- What a number in a text stands for. -/
inductive Numeral
  | integer (n : Int)
  | real (d : Double)
  deriving DecidableEq, Repr

namespace Numeral

/-- The numeral of a sign and a whole number below `2 ^ 64`. Negative zero, and what
lies below the signed integers, are doubles. -/
def ofWhole (negative : Bool) (n : Nat) : Numeral :=
  if !negative then integer n
  else if 0 < n ∧ n ≤ 0x8000000000000000 then integer (-n)
  else real (.ofMagnitude true (Number.double.nearest n 1))

/-- How the numeral is described in a fault. -/
def found : Numeral → Found
  | integer n => .integer n
  | real d => .real d

/-- The numeral as a double. -/
def toDouble : Numeral → Double
  | integer n => .ofInt n
  | real d => d

end Numeral

/-! ## Digits -/

/-- The digits at the front of a text. -/
def digitRun (cs : List Char) : List Char := cs.takeWhile Char.isDigit

/-- What follows the digits at the front of a text. -/
def behindDigits (cs : List Char) : List Char := cs.dropWhile Char.isDigit

/-- Whether a text starts with a digit. -/
def startsWithDigit : List Char → Bool
  | [] => false
  | c :: _ => c.isDigit

/-- Appends digits to a number for as long as it does not exceed a limit; gives the
number and the digits that are left over. -/
def collect (limit : Nat) : Nat → List Char → Nat × List Char
  | n, [] => (n, [])
  | n, c :: rest =>
    let next := n * 10 + (c.toNat - '0'.toNat)
    if next ≤ limit then collect limit next rest else (n, c :: rest)

/-- The largest significand. -/
def significandLimit : Nat := 0xffffffffffffffff

/-- The largest exponent that can be written out. -/
def exponentLimit : Nat := 0x7fffffff

/-! ## Parts of a number -/

/-- The double of a significand and an exponent. -/
def finishNumber (negative : Bool) (significand : Nat) (exponent : Int) : Reader Double :=
  fun rest =>
    match Number.scaled? significand exponent with
    | some w => .ok (.ofMagnitude negative w, rest)
    | none => .error (.before .numberOutOfRange rest)

/-- The sign of an exponent: whether it is negative, and what follows. -/
def exponentSign : List Char → Bool × List Char
  | '-' :: rest => (true, rest)
  | '+' :: rest => (false, rest)
  | cs => (false, cs)

/-- Takes the exponent, behind its letter. An exponent beyond the limit leaves only
zero in range, and then its digits are dropped; else the fault shows at the digit
that goes too far. -/
def readExponent (negative : Bool) (significand : Nat) (start : Int) : Reader Double :=
  fun cs =>
    match exponentSign cs with
    | (_, []) => .error (.ends .value)
    | (down, c :: rest) =>
      if !c.isDigit then .error (.within .badNumber (c :: rest))
      else
        let behind := behindDigits (c :: rest)
        match collect exponentLimit 0 (digitRun (c :: rest)) with
        | (e, []) =>
          finishNumber negative significand (if down then start - e else start + e) behind
        | (_, _ :: extra) =>
          if significand ≠ 0 && !down then .error (.before .numberOutOfRange (extra ++ behind))
          else .ok (.ofMagnitude negative 0, behind)

/-- Takes the exponent if there is one. -/
def readScale (negative : Bool) (significand : Nat) (exponent : Int) : Reader Double :=
  fun cs =>
    match cs with
    | 'e' :: rest | 'E' :: rest => readExponent negative significand exponent rest
    | _ => finishNumber negative significand exponent cs

/-- Takes the fraction, behind its point, and the exponent if there is one. -/
def readFraction (negative : Bool) (significand : Nat) (exponent : Int) : Reader Double :=
  fun cs =>
    if startsWithDigit cs then
      let run := digitRun cs
      let (n, extra) := collect significandLimit significand run
      readScale negative n (exponent - (run.length - extra.length : Nat)) (behindDigits cs)
    else if cs.isEmpty then .error (.ends .value)
    else .error (.within .badNumber cs)

/-- Takes a number, behind its sign. -/
def readNumeral (negative : Bool) : Reader Numeral :=
  fun cs =>
    match cs with
    | [] => .error (.ends .value)
    | c :: rest =>
      if !c.isDigit then .error (.within .badNumber (c :: rest))
      else if c = '0' && startsWithDigit rest then .error (.within .badNumber rest)
      else
        let (n, extra) := collect significandLimit 0 (digitRun (c :: rest))
        match behindDigits (c :: rest) with
        | '.' :: behind =>
          (readFraction negative n extra.length behind).map fun (d, rest) => (.real d, rest)
        | 'e' :: behind | 'E' :: behind =>
          (readExponent negative n extra.length behind).map fun (d, rest) => (.real d, rest)
        | behind =>
          if extra.isEmpty then .ok (.ofWhole negative n, behind)
          else (finishNumber negative n extra.length behind).map fun (d, rest) => (.real d, rest)

/-! ## Lengths -/

theorem behindDigits_length_le (cs : List Char) : (behindDigits cs).length ≤ cs.length := by
  unfold behindDigits
  exact (List.dropWhile_sublist _).length_le

theorem rest_of_finishNumber {negative : Bool} {n : Nat} {e : Int} {cs rest : List Char}
    {d : Double} (h : finishNumber negative n e cs = .ok (d, rest)) : rest = cs := by
  unfold finishNumber at h
  split at h
  · simp only [Except.ok.injEq, Prod.mk.injEq] at h
    exact h.2.symm
  · simp at h

theorem exponentSign_length_le (cs : List Char) : (exponentSign cs).2.length ≤ cs.length := by
  unfold exponentSign
  split <;> simp

theorem readExponent_length_le {negative : Bool} {n : Nat} {e : Int} {cs rest : List Char}
    {d : Double} (h : readExponent negative n e cs = .ok (d, rest)) :
    rest.length ≤ cs.length := by
  have sign := exponentSign_length_le cs
  unfold readExponent at h
  split at h
  · simp at h
  · next down c rest' taken =>
    rw [taken] at sign
    have behind := behindDigits_length_le (c :: rest')
    split at h
    · simp at h
    · dsimp only at h
      split at h
      · have := rest_of_finishNumber h
        subst this
        exact Nat.le_trans behind sign
      · split at h
        · simp at h
        · simp only [Except.ok.injEq, Prod.mk.injEq] at h
          rw [← h.2]
          exact Nat.le_trans behind sign

theorem readScale_length_le {negative : Bool} {n : Nat} {e : Int} {cs rest : List Char}
    {d : Double} (h : readScale negative n e cs = .ok (d, rest)) :
    rest.length ≤ cs.length := by
  unfold readScale at h
  split at h
  · have := readExponent_length_le h
    simp only [List.length_cons]
    omega
  · have := readExponent_length_le h
    simp only [List.length_cons]
    omega
  · have := rest_of_finishNumber h
    simp [this]

theorem readFraction_length_le {negative : Bool} {n : Nat} {e : Int} {cs rest : List Char}
    {d : Double} (h : readFraction negative n e cs = .ok (d, rest)) :
    rest.length ≤ cs.length := by
  unfold readFraction at h
  split at h
  · exact Nat.le_trans (readScale_length_le h) (behindDigits_length_le cs)
  · split at h <;> simp at h

theorem readNumeral_shrinks {negative : Bool} : Shrinks (readNumeral negative) := by
  intro cs a rest h
  unfold readNumeral at h
  split at h
  · simp at h
  · next c rest' =>
    split at h
    · simp at h
    · next digit =>
      have starts : behindDigits (c :: rest') = behindDigits rest' := by
        rw [behindDigits, List.dropWhile_cons_of_pos (by simpa using digit), behindDigits]
      have behind := behindDigits_length_le rest'
      split at h
      · simp at h
      · dsimp only at h
        rw [starts] at h
        simp only [List.length_cons]
        split at h
        · next taken =>
          obtain ⟨d, read⟩ := exists_ok_of_map h
          have := readFraction_length_le read
          simp only [taken, List.length_cons] at behind
          omega
        · next taken =>
          obtain ⟨d, read⟩ := exists_ok_of_map h
          have := readExponent_length_le read
          simp only [taken, List.length_cons] at behind
          omega
        · next taken =>
          obtain ⟨d, read⟩ := exists_ok_of_map h
          have := readExponent_length_le read
          simp only [taken, List.length_cons] at behind
          omega
        · split at h
          · simp only [Except.ok.injEq, Prod.mk.injEq] at h
            rw [← h.2]
            omega
          · obtain ⟨d, read⟩ := exists_ok_of_map h
            rw [rest_of_finishNumber read]
            omega

end Gremlin.Json
