import Gremlin.Json.Skip
import Gremlin.Proofs.Json.Phrases

/-!
# What is skipped

A value that is skipped may be any JSON value. The grammar is one relation with three
parts: a value, an item of a list or an object, and what may follow an item up to the
bracket that closes. Numbers have any size, strings may name half of a surrogate pair,
keys included, and nothing bounds how deep values are nested.

A skipped number goes as far as its characters do, so that what follows it matters:
behind a number of a JSON text stands a blank, a comma, a closing bracket, or nothing.

Results:
1. `skipNumeral_append`, `exists_of_skipNumeral`: numbers.
2. `skipped_of_skipValue`: what is skipped is a value.
3. `skipValue_of_skipped`: every value is skipped, down to its closing bracket.
-/

namespace Gremlin.Json

/-! ## Numbers -/

/-- One or more digits. -/
def IsDigits (ds : List Char) : Prop := ds ≠ [] ∧ ∀ d ∈ ds, d.isDigit = true

/-- Digits without a zero in front of others. -/
def IsWhole (ds : List Char) : Prop := IsDigits ds ∧ (ds.head? = some '0' → ds = ['0'])

/-- Nothing, or a point and digits. -/
def IsFraction (cs : List Char) : Prop := cs = [] ∨ ∃ ds, IsDigits ds ∧ cs = '.' :: ds

/-- The digits of an exponent, which may have a sign. -/
def IsPower (cs : List Char) : Prop :=
  ∃ sign ds, (sign = [] ∨ sign = ['+'] ∨ sign = ['-']) ∧ IsDigits ds ∧ cs = sign ++ ds

/-- Nothing, or a letter and the digits of an exponent. -/
def IsExponent (cs : List Char) : Prop :=
  cs = [] ∨ ∃ letter power, (letter = 'e' ∨ letter = 'E') ∧ IsPower power ∧ cs = letter :: power

/-- A number without a sign. -/
def IsNumeral (cs : List Char) : Prop :=
  ∃ whole fraction exponent, IsWhole whole ∧ IsFraction fraction ∧ IsExponent exponent ∧
    cs = whole ++ (fraction ++ exponent)

/-- What does not go on with a number. -/
def Ended (rest : List Char) : Prop :=
  ∀ c ∈ rest.head?, c.isDigit = false ∧ c ≠ '.' ∧ c ≠ 'e' ∧ c ≠ 'E'

theorem digitRun_append_behindDigits (cs : List Char) : digitRun cs ++ behindDigits cs = cs :=
  List.takeWhile_append_dropWhile

theorem isDigit_of_mem_digitRun {cs : List Char} {d : Char} (member : d ∈ digitRun cs) :
    d.isDigit = true :=
  List.all_eq_true.1 List.all_takeWhile d member

theorem isDigits_digitRun {cs : List Char} (starts : startsWithDigit cs = true) :
    IsDigits (digitRun cs) := by
  refine ⟨?_, fun d member => isDigit_of_mem_digitRun member⟩
  cases cs with
  | nil => cases starts
  | cons c rest =>
    have digit : c.isDigit = true := starts
    simp [digitRun, digit]

theorem startsWithDigit_append {ds : List Char} (digits : IsDigits ds) (rest : List Char) :
    startsWithDigit (ds ++ rest) = true := by
  obtain ⟨nonempty, all⟩ := digits
  obtain ⟨d, tail, rfl⟩ := List.exists_cons_of_ne_nil nonempty
  exact all d List.mem_cons_self

section Runs

variable {ds rest : List Char} (all : ∀ d ∈ ds, d.isDigit = true)
  (stop : startsWithDigit rest = false)

include all stop

/-- The digits end where something else stands. -/
theorem behindDigits_append : behindDigits (ds ++ rest) = rest := by
  rw [behindDigits, List.dropWhile_append_of_pos all]
  cases rest with
  | nil => rfl
  | cons c tail =>
    have outside : c.isDigit = false := stop
    simp [outside]

theorem digitRun_append : digitRun (ds ++ rest) = ds := by
  rw [digitRun, List.takeWhile_append_of_pos all]
  cases rest with
  | nil => simp
  | cons c tail =>
    have outside : c.isDigit = false := stop
    simp [outside]

end Runs

/-- Behind a zero in front stands no digit. -/
theorem IsWhole.zero_alone {c : Char} {tail rest : List Char} (whole : IsWhole (c :: tail))
    (stop : startsWithDigit rest = false) :
    ¬(decide (c = '0') && startsWithDigit (tail ++ rest)) = true := by
  intro both
  obtain ⟨first, more⟩ := Bool.and_eq_true_iff.1 both
  obtain rfl : c = '0' := of_decide_eq_true first
  obtain rfl : tail = [] := (List.cons.inj (whole.2 rfl)).2
  rw [List.nil_append, stop] at more
  cases more

theorem Ended.startsWithDigit {rest : List Char} (ended : Ended rest) :
    startsWithDigit rest = false := by
  cases rest with
  | nil => rfl
  | cons c tail => exact (ended c rfl).1

theorem exists_of_skipExponent {cs rest : List Char} (taken : skipExponent cs = .ok rest) :
    ∃ power, IsPower power ∧ cs = power ++ rest := by
  unfold skipExponent at taken
  dsimp only at taken
  split at taken
  · next starts =>
    cases taken
    have split := digitRun_append_behindDigits (exponentSign cs).2
    have digits := isDigits_digitRun starts
    have signed : ∃ sign, (sign = [] ∨ sign = ['+'] ∨ sign = ['-']) ∧
        cs = sign ++ (exponentSign cs).2 := by
      unfold exponentSign
      split
      · exact ⟨['-'], by simp, rfl⟩
      · exact ⟨['+'], by simp, rfl⟩
      · exact ⟨[], by simp, rfl⟩
    obtain ⟨sign, known, whole⟩ := signed
    refine ⟨sign ++ digitRun (exponentSign cs).2, ⟨sign, _, known, digits, rfl⟩, ?_⟩
    rw [List.append_assoc, split]
    exact whole
  · cases taken

theorem skipExponent_append {power rest : List Char} (isPower : IsPower power)
    (ended : Ended rest) : skipExponent (power ++ rest) = .ok rest := by
  obtain ⟨sign, ds, known, digits, rfl⟩ := isPower
  have behind : (exponentSign (sign ++ ds ++ rest)).2 = ds ++ rest := by
    rcases known with rfl | rfl | rfl
    · obtain ⟨nonempty, all⟩ := digits
      obtain ⟨d, tail, rfl⟩ := List.exists_cons_of_ne_nil nonempty
      have digit := all d List.mem_cons_self
      have notMinus : d ≠ '-' := by rintro rfl; cases digit
      have notPlus : d ≠ '+' := by rintro rfl; cases digit
      simp [exponentSign, notMinus, notPlus]
    · rfl
    · rfl
  unfold skipExponent
  rw [behind, if_pos (startsWithDigit_append digits rest),
    behindDigits_append digits.2 ended.startsWithDigit]

theorem exists_of_skipScale {cs rest : List Char} (taken : skipScale cs = .ok rest) :
    ∃ exponent, IsExponent exponent ∧ cs = exponent ++ rest := by
  unfold skipScale at taken
  split at taken
  · obtain ⟨power, isPower, rfl⟩ := exists_of_skipExponent taken
    exact ⟨'e' :: power, .inr ⟨'e', power, .inl rfl, isPower, rfl⟩, rfl⟩
  · obtain ⟨power, isPower, rfl⟩ := exists_of_skipExponent taken
    exact ⟨'E' :: power, .inr ⟨'E', power, .inr rfl, isPower, rfl⟩, rfl⟩
  · cases taken
    exact ⟨[], .inl rfl, rfl⟩

theorem skipScale_append {exponent rest : List Char} (isExponent : IsExponent exponent)
    (ended : Ended rest) : skipScale (exponent ++ rest) = .ok rest := by
  rcases isExponent with rfl | ⟨letter, power, known, isPower, rfl⟩
  · rw [List.nil_append]
    cases rest with
    | nil => rfl
    | cons c tail =>
      obtain ⟨_, _, lower, upper⟩ := ended c rfl
      simp [skipScale, lower, upper]
  · rcases known with rfl | rfl <;> exact skipExponent_append isPower ended

/-- The digits behind the first one, if a zero has none behind it. -/
theorem isWhole_digitRun {c : Char} {behind : List Char} (digit : c.isDigit = true)
    (noZero : (decide (c = '0') && startsWithDigit behind) = false) :
    IsWhole (c :: digitRun behind) := by
  refine ⟨⟨List.cons_ne_nil _ _, fun d member => ?_⟩, fun first => ?_⟩
  · rcases List.mem_cons.1 member with rfl | inside
    · exact digit
    · exact isDigit_of_mem_digitRun inside
  · obtain rfl : c = '0' := Option.some.inj first
    cases behind with
    | nil => rfl
    | cons d tail =>
      have stop : d.isDigit = false := noZero
      simp [digitRun, stop]

theorem exists_of_skipNumeral {cs rest : List Char} (taken : skipNumeral cs = .ok rest) :
    ∃ numeral, IsNumeral numeral ∧ cs = numeral ++ rest := by
  unfold skipNumeral at taken
  split at taken
  · cases taken
  · next c behind =>
    split at taken
    · cases taken
    · next digit =>
      split at taken
      · cases taken
      · next noZero =>
        have whole := isWhole_digitRun (by simpa using digit) (Bool.eq_false_iff.2 noZero)
        have digits := digitRun_append_behindDigits behind
        split at taken
        · next inner point =>
          split at taken
          · next starts =>
            obtain ⟨exponent, isExponent, after⟩ := exists_of_skipScale taken
            have fraction := digitRun_append_behindDigits inner
            refine ⟨_, ⟨_, '.' :: digitRun inner, exponent, whole,
              .inr ⟨_, isDigits_digitRun starts, rfl⟩, isExponent, rfl⟩, ?_⟩
            calc
              c :: behind = c :: (digitRun behind ++ '.' :: inner) := by rw [← point, digits]
              _ = c :: (digitRun behind ++ '.' :: (digitRun inner ++ (exponent ++ rest))) := by
                rw [← after, fraction]
              _ = _ := by simp
          · cases taken
        · obtain ⟨exponent, isExponent, after⟩ := exists_of_skipScale taken
          refine ⟨_, ⟨_, [], exponent, whole, .inl rfl, isExponent, rfl⟩, ?_⟩
          calc
            c :: behind = c :: (digitRun behind ++ (exponent ++ rest)) := by rw [← after, digits]
            _ = _ := by simp

/-- Neither an exponent nor what ends a number looks like more digits or a fraction. -/
theorem exponent_follows {exponent rest : List Char} (isExponent : IsExponent exponent)
    (ended : Ended rest) :
    startsWithDigit (exponent ++ rest) = false ∧ ∀ inner, exponent ++ rest ≠ '.' :: inner := by
  rcases isExponent with rfl | ⟨letter, power, known, _, rfl⟩
  · refine ⟨ended.startsWithDigit, fun inner point => ?_⟩
    exact (ended '.' (by rw [List.nil_append] at point; rw [point]; rfl)).2.1 rfl
  · rcases known with rfl | rfl
    · exact ⟨rfl, fun inner point => by cases point⟩
    · exact ⟨rfl, fun inner point => by cases point⟩

theorem skipNumeral_append {numeral rest : List Char} (isNumeral : IsNumeral numeral)
    (ended : Ended rest) : skipNumeral (numeral ++ rest) = .ok rest := by
  obtain ⟨whole, fraction, exponent, isWhole, isFraction, isExponent, rfl⟩ := isNumeral
  obtain ⟨c, tail, rfl⟩ := List.exists_cons_of_ne_nil isWhole.1.1
  have all := isWhole.1.2
  have digit : c.isDigit = true := all c List.mem_cons_self
  have digits : ∀ d ∈ tail, d.isDigit = true :=
    fun d member => all d (List.mem_cons_of_mem _ member)
  have scale := skipScale_append isExponent ended
  obtain ⟨noDigit, noPoint⟩ := exponent_follows isExponent ended
  have stop : startsWithDigit (fraction ++ exponent ++ rest) = false := by
    rcases isFraction with rfl | ⟨ds, _, rfl⟩
    · exact noDigit
    · rfl
  rw [List.append_assoc, List.cons_append, skipNumeral, if_neg (by simp [digit]),
    if_neg (isWhole.zero_alone stop), behindDigits_append digits stop]
  rcases isFraction with rfl | ⟨ds, isDigits, rfl⟩
  · rw [List.nil_append]
    split
    · next inner point => exact absurd point (noPoint inner)
    · exact scale
  · have split : '.' :: ds ++ exponent ++ rest = '.' :: (ds ++ (exponent ++ rest)) := by simp
    rw [split]
    show (if startsWithDigit (ds ++ (exponent ++ rest)) = true then _ else _) = _
    rw [if_pos (startsWithDigit_append isDigits _), behindDigits_append isDigits.2 noDigit, scale]

/-! ## Values -/

/-- The character that opens a list or an object. -/
def Bracket.opening : Bracket → Char
  | .list => '['
  | .object => '\x7b'

/-- The character that closes it. -/
def Bracket.closing : Bracket → Char
  | .list => ']'
  | .object => '\x7d'

/-- A key whose text does not matter, and the colon behind it. -/
def LaxKey (cs rest : List Char) : Prop :=
  ∃ body behind, Symbol '"' cs body ∧ LaxBody body behind ∧ Symbol ':' behind rest

/-- What stands before a nested value: a key in an object, nothing else in a list. -/
def Enters : Bracket → List Char → List Char → Prop
  | .list => Blanks
  | .object => LaxKey

/-- A number, which may be negative. -/
def Number (cs rest : List Char) : Prop :=
  ∃ numeral, IsNumeral numeral ∧ (Blanks cs (numeral ++ rest) ∨ Symbol '-' cs (numeral ++ rest))

/-- The parts of the grammar of values. -/
inductive Part
  /-- A value. -/
  | value
  /-- What may follow a nested value, with the bracket that closes. -/
  | more (b : Bracket)

/-- The values that are skipped. -/
inductive Skipped : Part → List Char → List Char → Prop
  | null {cs rest : List Char} (word : Word ['n', 'u', 'l', 'l'] cs rest) : Skipped .value cs rest
  | boolean {b : Bool} {cs rest : List Char} (word : Word (booleanWord b) cs rest) :
      Skipped .value cs rest
  | number {cs rest : List Char} (number : Number cs rest) : Skipped .value cs rest
  | string {cs inner rest : List Char} (quote : Symbol '"' cs inner) (body : LaxBody inner rest) :
      Skipped .value cs rest
  | empty {b : Bracket} {cs inner rest : List Char} (opens : Symbol b.opening cs inner)
      (closes : Symbol b.closing inner rest) : Skipped .value cs rest
  | nested {b : Bracket} {cs inner first behind rest : List Char}
      (opens : Symbol b.opening cs inner) (enters : Enters b inner first)
      (value : Skipped .value first behind) (others : Skipped (.more b) behind rest) :
      Skipped .value cs rest
  | close {b : Bracket} {cs rest : List Char} (closes : Symbol b.closing cs rest) :
      Skipped (.more b) cs rest
  | next {b : Bracket} {cs inner first behind rest : List Char} (comma : Symbol ',' cs inner)
      (enters : Enters b inner first) (value : Skipped .value first behind)
      (others : Skipped (.more b) behind rest) : Skipped (.more b) cs rest

theorem LaxKey.blanks {cs behind rest : List Char} (key : LaxKey behind rest)
    (blanks : Blanks cs behind) : LaxKey cs rest := by
  obtain ⟨inner, after, quote, body, colon⟩ := key
  exact ⟨inner, after, blanks.trans quote, body, colon⟩

theorem skipKey_eq_ok_iff {cs rest : List Char} : skipKey cs = .ok rest ↔ LaxKey cs rest := by
  constructor
  · intro taken
    unfold skipKey at taken
    split at taken
    · cases taken
    · next inner start =>
      split at taken
      · cases taken
      · next behind body =>
        split at taken
        · cases taken
        · next colon =>
          cases taken
          exact ⟨inner, behind, symbol_of_skipBlanks start, skipString_eq_ok_iff.1 body,
            symbol_of_skipBlanks colon⟩
        · cases taken
    · cases taken
  · rintro ⟨inner, behind, quote, body, colon⟩
    rw [skipKey, (symbol_iff (by decide)).1 quote]
    simp [skipString_eq_ok_iff.2 body, (symbol_iff (by decide)).1 colon]

/-! ## What is skipped is a value -/

/-- What closes the open brackets around a value. -/
inductive Closes : List Bracket → List Char → List Char → Prop
  | nil {cs : List Char} : Closes [] cs cs
  | cons {b : Bracket} {outer : List Bracket} {cs behind rest : List Char}
      (more : Skipped (.more b) cs behind) (around : Closes outer behind rest) :
      Closes (b :: outer) cs rest

theorem isBlank_opening (b : Bracket) : isBlank b.opening = false := by cases b <;> rfl

theorem isBlank_closing (b : Bracket) : isBlank b.closing = false := by cases b <;> rfl

/-- A value that is not nested. -/
theorem skipped_of_skipScalar {cs rest : List Char} (taken : skipScalar cs = .ok (none, rest)) :
    Skipped .value cs rest := by
  unfold skipScalar at taken
  split at taken
  · cases taken
  · next start => exact .null (word_of_readWord start (eq_ok_of_map taken))
  · next start => exact .boolean (b := true) (word_of_readWord start (eq_ok_of_map taken))
  · next start => exact .boolean (b := false) (word_of_readWord start (eq_ok_of_map taken))
  · next start =>
    exact .string (symbol_of_skipBlanks start) (skipString_eq_ok_iff.1 (eq_ok_of_map taken))
  · next start =>
    obtain ⟨numeral, isNumeral, rfl⟩ := exists_of_skipNumeral (eq_ok_of_map taken)
    exact .number ⟨numeral, isNumeral, .inr (symbol_of_skipBlanks start)⟩
  · cases taken
  · cases taken
  · next start =>
    split at taken
    · obtain ⟨numeral, isNumeral, split⟩ := exists_of_skipNumeral (eq_ok_of_map taken)
      refine .number ⟨numeral, isNumeral, .inl ?_⟩
      rw [← split, ← start]
      exact blanks_skipBlanks cs
    · cases taken

theorem opening_of_skipScalar {b : Bracket} {cs rest : List Char}
    (taken : skipScalar cs = .ok (some b, rest)) : Symbol b.opening cs rest := by
  have scalar {x : Except Fault (List Char)} : ¬x.map (none, ·) = .ok (some b, rest) := by
    intro same
    obtain ⟨_, _, eq⟩ := map_eq_ok.1 same
    cases eq
  unfold skipScalar at taken
  split at taken
  · cases taken
  · exact absurd taken scalar
  · exact absurd taken scalar
  · exact absurd taken scalar
  · exact absurd taken scalar
  · exact absurd taken scalar
  · next start =>
    cases taken
    exact symbol_of_skipBlanks start
  · next start =>
    cases taken
    exact symbol_of_skipBlanks start
  · split at taken
    · exact absurd taken scalar
    · cases taken

theorem closing_of_skipOpening {b : Bracket} {cs rest : List Char}
    (taken : skipOpening b cs = .ok (false, rest)) : Symbol b.closing cs rest := by
  unfold skipOpening at taken
  split at taken
  · cases taken
  · next start =>
    cases taken
    exact symbol_of_skipBlanks start
  · cases taken
  · cases taken
  · next start =>
    cases taken
    exact symbol_of_skipBlanks start
  · obtain ⟨_, _, eq⟩ := map_eq_ok.1 taken
    cases eq

theorem enters_of_skipOpening {b : Bracket} {cs rest : List Char}
    (taken : skipOpening b cs = .ok (true, rest)) : Enters b cs rest := by
  unfold skipOpening at taken
  split at taken
  · cases taken
  · cases taken
  · cases taken
    exact blanks_skipBlanks cs
  · cases taken
  · cases taken
  · exact (skipKey_eq_ok_iff.1 (eq_ok_of_map taken)).blanks (blanks_skipBlanks cs)

theorem closing_of_skipBetween {b : Bracket} {cs rest : List Char}
    (taken : skipBetween b cs = .ok (false, rest)) : Symbol b.closing cs rest := by
  unfold skipBetween at taken
  split at taken
  · cases taken
  · cases taken
  · next start =>
    cases taken
    exact symbol_of_skipBlanks start
  · cases taken
  · cases taken
  · obtain ⟨_, _, eq⟩ := map_eq_ok.1 taken
    cases eq
  · next start =>
    cases taken
    exact symbol_of_skipBlanks start
  · cases taken

theorem enters_of_skipBetween {b : Bracket} {cs rest : List Char}
    (taken : skipBetween b cs = .ok (true, rest)) :
    ∃ inner, Symbol ',' cs inner ∧ Enters b inner rest := by
  unfold skipBetween at taken
  split at taken
  · cases taken
  · next start =>
    cases taken
    exact ⟨rest, symbol_of_skipBlanks start, .refl rest⟩
  · cases taken
  · cases taken
  · cases taken
  · next start =>
    exact ⟨_, symbol_of_skipBlanks start, skipKey_eq_ok_iff.1 (eq_ok_of_map taken)⟩
  · cases taken
  · cases taken

mutual

theorem skipped_of_skipInside {outer : List Bracket} {cs rest : List Char}
    (taken : skipInside outer cs = .ok rest) :
    ∃ behind, Skipped .value cs behind ∧ Closes outer behind rest := by
  rw [skipInside] at taken
  split at taken
  · cases taken
  · next behind scalar =>
    have := skipScalar_length_lt scalar
    exact ⟨behind, skipped_of_skipScalar scalar, closes_of_skipBehind taken⟩
  · next b inner opens =>
    have := skipScalar_length_lt opens
    split at taken
    · cases taken
    · next first opened =>
      have := skipOpening_length_le opened
      -- The innermost of the brackets that are closed is the one that was just opened.
      obtain ⟨behind, value, closes⟩ := skipped_of_skipInside taken
      cases closes with
      | cons others around =>
        exact ⟨_, .nested (opening_of_skipScalar opens) (enters_of_skipOpening opened) value others,
          around⟩
    · next behind opened =>
      have := skipOpening_length_le opened
      exact ⟨behind, .empty (opening_of_skipScalar opens) (closing_of_skipOpening opened),
        closes_of_skipBehind taken⟩
termination_by cs.length

theorem closes_of_skipBehind {outer : List Bracket} {cs rest : List Char}
    (taken : skipBehind outer cs = .ok rest) : Closes outer cs rest := by
  unfold skipBehind at taken
  split at taken
  · cases taken
    exact .nil
  · next b outer =>
    split at taken
    · cases taken
    · next first between =>
      have := skipBetween_length_lt between
      obtain ⟨inner, comma, enters⟩ := enters_of_skipBetween between
      obtain ⟨behind, value, closes⟩ := skipped_of_skipInside taken
      cases closes with
      | cons others around => exact .cons (.next comma enters value others) around
    · next behind between =>
      have := skipBetween_length_lt between
      exact .cons (.close (closing_of_skipBetween between)) (closes_of_skipBehind taken)
termination_by cs.length

end

/-- What is skipped is a value. -/
theorem skipped_of_skipValue {cs rest : List Char} (taken : skipValue cs = .ok rest) :
    Skipped .value cs rest := by
  obtain ⟨behind, value, closes⟩ := skipped_of_skipInside taken
  cases closes
  exact value

/-! ## Every value is skipped -/

theorem skipInside_congr {outer : List Bracket} {a b : List Char}
    (same : skipBlanks a = skipBlanks b) : skipInside outer a = skipInside outer b := by
  have scalar : skipScalar a = skipScalar b := by
    unfold skipScalar
    rw [same]
  rw [skipInside, skipInside, scalar]

theorem ended_of_symbol {c : Char} {cs rest : List Char} (symbol : Symbol c cs rest)
    (stop : c.isDigit = false ∧ c ≠ '.' ∧ c ≠ 'e' ∧ c ≠ 'E') : Ended cs := by
  obtain ⟨blanks, blank, rfl⟩ := symbol
  intro d first
  cases blanks with
  | nil =>
    cases first
    exact stop
  | cons d' tail =>
    cases first
    have isBlank : isBlank d = true := blank d List.mem_cons_self
    simp only [Json.isBlank, Bool.or_eq_true, beq_iff_eq] at isBlank
    rcases isBlank with ((rfl | rfl) | rfl) | rfl <;> decide

/-- What may follow a value does not go on with a number. -/
theorem Skipped.ended {b : Bracket} {cs rest : List Char} (more : Skipped (.more b) cs rest) :
    Ended cs := by
  cases more with
  | close closes => exact ended_of_symbol closes (by cases b <;> decide)
  | next comma => exact ended_of_symbol comma (by decide)

theorem isBlank_of_isDigit {c : Char} (digit : c.isDigit = true) : isBlank c = false := by
  rw [← Bool.not_eq_true]
  intro blank
  simp only [isBlank, Bool.or_eq_true, beq_iff_eq] at blank
  rcases blank with ((rfl | rfl) | rfl) | rfl <;> cases digit

/-- A number starts with a digit. -/
theorem skipBlanks_of_numeral {numeral cs rest : List Char} (isNumeral : IsNumeral numeral)
    (stands : Blanks cs (numeral ++ rest)) :
    ∃ c tail, numeral ++ rest = c :: tail ∧ c.isDigit = true ∧ skipBlanks cs = c :: tail := by
  obtain ⟨whole, fraction, exponent, ⟨⟨nonempty, all⟩, _⟩, _, _, rfl⟩ := isNumeral
  obtain ⟨c, tail, rfl⟩ := List.exists_cons_of_ne_nil nonempty
  have digit : c.isDigit = true := all c List.mem_cons_self
  exact ⟨c, _, rfl, digit, (symbol_iff (isBlank_of_isDigit digit)).1 stands⟩

/-- Something stands behind the blanks that closes no list. -/
def Starts (cs : List Char) : Prop := ∃ c tail, skipBlanks cs = c :: tail ∧ c ≠ ']'

theorem starts_of_symbol {c : Char} {cs rest : List Char} (symbol : Symbol c cs rest)
    (ink : isBlank c = false) (noClosing : c ≠ ']') : Starts cs :=
  ⟨c, rest, (symbol_iff ink).1 symbol, noClosing⟩

/-- A value starts with a character that closes no list. -/
theorem Skipped.starts {cs rest : List Char} (value : Skipped .value cs rest) : Starts cs := by
  cases value with
  | null word => exact starts_of_symbol word (by decide) (by decide)
  | @boolean b _ _ word => cases b <;> exact starts_of_symbol word (by decide) (by decide)
  | number number =>
    obtain ⟨numeral, isNumeral, plain | minus⟩ := number
    · obtain ⟨c, tail, _, digit, start⟩ := skipBlanks_of_numeral isNumeral plain
      exact ⟨c, tail, start, by rintro rfl; cases digit⟩
    · exact starts_of_symbol minus (by decide) (by decide)
  | string quote _ => exact starts_of_symbol quote (by decide) (by decide)
  | @empty b _ _ _ opens _ | @nested b _ _ _ _ _ opens _ _ _ =>
    exact starts_of_symbol opens (isBlank_opening b) (by cases b <;> decide)

theorem skipScalar_of_number {cs rest : List Char} (number : Number cs rest) (ended : Ended rest) :
    skipScalar cs = .ok (none, rest) := by
  obtain ⟨numeral, isNumeral, plain | minus⟩ := number
  · obtain ⟨c, tail, split, digit, start⟩ := skipBlanks_of_numeral isNumeral plain
    have taken := skipNumeral_append isNumeral ended
    unfold skipScalar
    rw [start]
    split
    · next none => cases none
    · next first => cases first; cases digit
    · next first => cases first; cases digit
    · next first => cases first; cases digit
    · next first => cases first; cases digit
    · next first => cases first; cases digit
    · next first => cases first; cases digit
    · next first => cases first; cases digit
    · next first =>
      cases first
      rw [if_pos digit, ← split, taken, Except.map]
  · rw [skipScalar, (symbol_iff (by decide)).1 minus]
    show (skipNumeral (numeral ++ rest)).map _ = _
    rw [skipNumeral_append isNumeral ended, Except.map]

theorem skipScalar_null {cs rest : List Char} (word : Word ['n', 'u', 'l', 'l'] cs rest) :
    skipScalar cs = .ok (none, rest) := by
  rw [skipScalar, skipBlanks_of_word (by decide) word]
  show (readWord ['u', 'l', 'l'] _).map _ = _
  rw [readWord_append, Except.map]

theorem skipScalar_boolean {b : Bool} {cs rest : List Char} (word : Word (booleanWord b) cs rest) :
    skipScalar cs = .ok (none, rest) := by
  cases b with
  | true =>
    rw [skipScalar, skipBlanks_of_word (by decide) word]
    show (readWord ['r', 'u', 'e'] _).map _ = _
    rw [readWord_append, Except.map]
  | false =>
    rw [skipScalar, skipBlanks_of_word (by decide) word]
    show (readWord ['a', 'l', 's', 'e'] _).map _ = _
    rw [readWord_append, Except.map]

theorem skipScalar_string {cs inner rest : List Char} (quote : Symbol '"' cs inner)
    (body : LaxBody inner rest) : skipScalar cs = .ok (none, rest) := by
  rw [skipScalar, (symbol_iff (by decide)).1 quote]
  show (skipString inner).map _ = _
  rw [skipString_eq_ok_iff.2 body, Except.map]

theorem skipScalar_opening {b : Bracket} {cs rest : List Char} (opens : Symbol b.opening cs rest) :
    skipScalar cs = .ok (some b, rest) := by
  rw [skipScalar, (symbol_iff (isBlank_opening b)).1 opens]
  cases b <;> rfl

theorem skipOpening_closing {b : Bracket} {cs rest : List Char}
    (closes : Symbol b.closing cs rest) :
    skipOpening b cs = .ok (false, rest) := by
  rw [skipOpening.eq_def, (symbol_iff (isBlank_closing b)).1 closes]
  cases b <;> rfl

theorem skipBetween_closing {b : Bracket} {cs rest : List Char}
    (closes : Symbol b.closing cs rest) :
    skipBetween b cs = .ok (false, rest) := by
  rw [skipBetween.eq_def, (symbol_iff (isBlank_closing b)).1 closes]
  cases b <;> rfl

theorem skipOpening_of_enters {b : Bracket} {cs first : List Char} (enters : Enters b cs first)
    (starts : Starts first) :
    ∃ inner, skipOpening b cs = .ok (true, inner) ∧ skipBlanks inner = skipBlanks first := by
  cases b with
  | list =>
    obtain ⟨c, tail, start, noClosing⟩ := starts
    have same := skipBlanks_eq_of_blanks enters
    refine ⟨skipBlanks cs, ?_, ?_⟩
    · rw [start] at same
      simp [skipOpening, same, noClosing]
    · rw [← skipBlanks_eq_of_blanks (blanks_skipBlanks cs), same]
  | object =>
    refine ⟨first, ?_, rfl⟩
    obtain ⟨inner, behind, quote, body, colon⟩ := enters
    have start := (symbol_iff (by decide)).1 quote
    have key : skipKey (skipBlanks cs) = .ok first :=
      skipKey_eq_ok_iff.2 ⟨inner, behind, start ▸ .refl _, body, colon⟩
    rw [start] at key
    simp [skipOpening, start, key, Except.map]

theorem skipBetween_of_enters {b : Bracket} {cs behind first : List Char}
    (comma : Symbol ',' cs behind) (enters : Enters b behind first) :
    ∃ inner, skipBetween b cs = .ok (true, inner) ∧ skipBlanks inner = skipBlanks first := by
  have start := (symbol_iff (by decide)).1 comma
  cases b with
  | list => exact ⟨behind, by simp [skipBetween, start], skipBlanks_eq_of_blanks enters⟩
  | object =>
    have key : skipKey behind = .ok first := skipKey_eq_ok_iff.2 enters
    exact ⟨first, by simp [skipBetween, start, key, Except.map], rfl⟩

/-- What is said of both parts by induction: a value is skipped down to what follows it,
and what follows a value down to the bracket that closes. -/
def Part.Taken : Part → List Char → List Char → Prop
  | .value, cs, rest => Ended rest → ∀ outer, skipInside outer cs = skipBehind outer rest
  | .more b, cs, rest => ∀ outer, skipBehind (b :: outer) cs = skipBehind outer rest

theorem skipInside_scalar {outer : List Bracket} {cs rest : List Char}
    (scalar : skipScalar cs = .ok (none, rest)) : skipInside outer cs = skipBehind outer rest := by
  rw [skipInside]
  split <;> simp_all

theorem skipInside_empty {outer : List Bracket} {b : Bracket} {cs inner rest : List Char}
    (opens : skipScalar cs = .ok (some b, inner))
    (closes : skipOpening b inner = .ok (false, rest)) :
    skipInside outer cs = skipBehind outer rest := by
  rw [skipInside]
  split
  · simp_all
  · simp_all
  · split <;> simp_all

theorem skipInside_nested {outer : List Bracket} {b : Bracket} {cs inner first : List Char}
    (opens : skipScalar cs = .ok (some b, inner))
    (enters : skipOpening b inner = .ok (true, first)) :
    skipInside outer cs = skipInside (b :: outer) first := by
  rw [skipInside]
  split
  · simp_all
  · simp_all
  · split <;> simp_all

theorem skipBehind_next {outer : List Bracket} {b : Bracket} {cs first : List Char}
    (between : skipBetween b cs = .ok (true, first)) :
    skipBehind (b :: outer) cs = skipInside (b :: outer) first := by
  rw [skipBehind]
  split <;> simp_all

theorem skipBehind_close {outer : List Bracket} {b : Bracket} {cs rest : List Char}
    (between : skipBetween b cs = .ok (false, rest)) :
    skipBehind (b :: outer) cs = skipBehind outer rest := by
  rw [skipBehind]
  split <;> simp_all

/-- The induction is on the grammar; the brackets around a value are left to what follows. -/
theorem Skipped.taken {part : Part} {cs rest : List Char} (skipped : Skipped part cs rest) :
    part.Taken cs rest := by
  induction skipped with
  | null word => exact fun _ _ => skipInside_scalar (skipScalar_null word)
  | boolean word => exact fun _ _ => skipInside_scalar (skipScalar_boolean word)
  | number number => exact fun ended _ => skipInside_scalar (skipScalar_of_number number ended)
  | string quote body => exact fun _ _ => skipInside_scalar (skipScalar_string quote body)
  | empty opens closes =>
    exact fun _ _ => skipInside_empty (skipScalar_opening opens) (skipOpening_closing closes)
  | @nested b cs inner first behind rest opens enters value others valueTaken othersTaken =>
    intro ended outer
    obtain ⟨first', opened, same⟩ := skipOpening_of_enters enters value.starts
    calc
      skipInside outer cs = skipInside (b :: outer) first' :=
        skipInside_nested (skipScalar_opening opens) opened
      _ = skipInside (b :: outer) first := skipInside_congr same
      _ = skipBehind (b :: outer) behind := valueTaken others.ended (b :: outer)
      _ = skipBehind outer rest := othersTaken outer
  | close closes => exact fun _ => skipBehind_close (skipBetween_closing closes)
  | @next b cs inner first behind rest comma enters value others valueTaken othersTaken =>
    intro outer
    obtain ⟨first', between, same⟩ := skipBetween_of_enters comma enters
    calc
      skipBehind (b :: outer) cs = skipInside (b :: outer) first' := skipBehind_next between
      _ = skipInside (b :: outer) first := skipInside_congr same
      _ = skipBehind (b :: outer) behind := valueTaken others.ended (b :: outer)
      _ = skipBehind outer rest := othersTaken outer

/-- Every value is skipped. -/
theorem skipValue_of_skipped {cs rest : List Char} (value : Skipped .value cs rest)
    (ended : Ended rest) : skipValue cs = .ok rest := by
  rw [skipValue, value.taken ended [], skipBehind]

end Gremlin.Json
