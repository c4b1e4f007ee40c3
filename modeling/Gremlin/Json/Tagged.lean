import Gremlin.Json.Object
import Gremlin.Json.Scalar

/-!
# Reading tagged values

A tagged value is an object with one member, whose key names a variant. The name
alone, as a string, stands for a variant that carries nothing.

Results:
1. `readTagged_shrinks`: a tagged value takes characters from the text if each of its
   variants does.
-/

namespace Gremlin.Json

/-! ## Variants -/

/-- A variant of a tagged value. -/
structure Variant (α : Type) where
  name : String
  /-- What the name alone stands for. -/
  bare : Except Cause α
  /-- Takes what belongs to the name. -/
  read : Reader α

/-- Takes the name of a variant, behind its opening quote. -/
def readVariant {α : Type} (variants : List (Variant α)) : Reader (Variant α) := fun cs =>
  match readString cs with
  | .error f => .error f
  | .ok (text, rest) =>
    let name := String.ofList text
    match variants.find? (·.name == name) with
    | some v => .ok (v, rest)
    | none => .error (.before (.unknownVariant name (variants.map (·.name))) rest)

/-- Takes the key of a tagged value, which must be there. -/
def readVariantKey {α : Type} (variants : List (Variant α)) : Reader (Variant α) := fun cs =>
  match skipBlanks cs with
  | [] => .error (.ends .object)
  | '"' :: rest => readVariant variants rest
  | '\x7d' :: rest => .error (.within .noValue ('\x7d' :: rest))
  | rest => .error (.within .keyNotString rest)

/-- Takes the brace that closes a tagged value. -/
def closeTagged {α : Type} (a : α) (cs : List Char) : Except Fault (α × List Char) :=
  match skipBlanks cs with
  | [] => .error (.ends .object)
  | '\x7d' :: rest => .ok (a, rest)
  | rest => .error (.before .noValue rest)

/-- Takes a tagged value: an object whose only key names the variant, or the name
alone. -/
def readTagged {α : Type} (variants : List (Variant α)) : Reader α := fun cs =>
  match skipBlanks cs with
  | [] => .error (.ends .value)
  | '\x7b' :: rest =>
    match readVariantKey variants rest with
    | .error f => .error f
    | .ok (v, rest) =>
      match readColon rest with
      | .error f => .error f
      | .ok rest =>
        match v.read rest with
        | .error f => .error f
        | .ok (a, rest) => closeTagged a rest
  | '"' :: rest =>
    match readVariant variants rest with
    | .error f => .error f
    | .ok (v, rest) =>
      match v.bare with
      | .ok a => .ok (a, rest)
      | .error cause => .error (.before cause rest)
  | rest => .error (.within .noValue rest)

/-! ## Lengths -/

theorem readVariant_shrinks {α : Type} {variants : List (Variant α)} :
    Shrinks (readVariant variants) := by
  intro cs a rest h
  unfold readVariant at h
  split at h
  · simp at h
  · next text behind taken =>
    have := readString_shrinks taken
    simp only at h
    split at h
    · simp only [Except.ok.injEq, Prod.mk.injEq] at h
      rw [← h.2]
      exact this
    · simp at h

theorem readVariant_mem {α : Type} {variants : List (Variant α)} {cs rest : List Char}
    {v : Variant α} (h : readVariant variants cs = .ok (v, rest)) : v ∈ variants := by
  unfold readVariant at h
  split at h
  · simp at h
  · simp only at h
    split at h
    · next found =>
      simp only [Except.ok.injEq, Prod.mk.injEq] at h
      exact h.1 ▸ List.mem_of_find?_eq_some found
    · simp at h

theorem readVariantKey_shrinks {α : Type} {variants : List (Variant α)} :
    Shrinks (readVariantKey variants) := by
  intro cs a rest h
  have blanks := skipBlanks_length_le cs
  unfold readVariantKey at h
  split at h
  · simp at h
  · next start =>
    have := readVariant_shrinks h
    simp only [start, List.length_cons] at blanks
    omega
  · simp at h
  · simp at h

theorem readVariantKey_mem {α : Type} {variants : List (Variant α)} {cs rest : List Char}
    {v : Variant α} (h : readVariantKey variants cs = .ok (v, rest)) : v ∈ variants := by
  unfold readVariantKey at h
  split at h
  · simp at h
  · exact readVariant_mem h
  · simp at h
  · simp at h

theorem closeTagged_length_lt {α : Type} {a b : α} {cs rest : List Char}
    (h : closeTagged a cs = .ok (b, rest)) : rest.length < cs.length := by
  have blanks := skipBlanks_length_le cs
  unfold closeTagged at h
  split at h
  · simp at h
  · next behind start =>
    simp only [Except.ok.injEq, Prod.mk.injEq] at h
    simp only [start, List.length_cons, h.2] at blanks
    omega
  · simp at h

theorem readTagged_shrinks {α : Type} {variants : List (Variant α)}
    (shrinks : ∀ v ∈ variants, Shrinks v.read) : Shrinks (readTagged variants) := by
  intro cs a rest h
  have blanks := skipBlanks_length_le cs
  unfold readTagged at h
  split at h
  · simp at h
  · next start =>
    simp only [start, List.length_cons] at blanks
    split at h
    · simp at h
    · next named =>
      have := readVariantKey_shrinks named
      split at h
      · simp at h
      · next colon =>
        have := readColon_length_lt colon
        split at h
        · simp at h
        · next taken =>
          have := shrinks _ (readVariantKey_mem named) taken
          have := closeTagged_length_lt h
          omega
  · next start =>
    simp only [start, List.length_cons] at blanks
    split at h
    · simp at h
    · next named =>
      have := readVariant_shrinks named
      split at h
      · simp only [Except.ok.injEq, Prod.mk.injEq] at h
        rw [← h.2]
        omega
      · simp at h
  · simp at h

end Gremlin.Json
