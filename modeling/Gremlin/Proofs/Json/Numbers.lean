import Gremlin.Proofs.Json.Fractions

/-!
# What numbers stand for

A number of a JSON text has a sign, digits before its point, and perhaps digits behind the point
and an exponent. What it stands for is told from these parts alone. A whole number of 64 bits
without a fraction and without an exponent is an integer or, if the signed integers do not reach
so far, the double nearest to it; any other number is the double that its digits and its exponent
are scaled to, which may be infinite.

Results:
1. `readNumber_eq_ok_iff`: which texts are read as numbers, and what is read.
2. `isFinite_decoded_iff`: the numbers that are in range.
3. `readInteger_eq_ok_iff`, `readDouble_eq_ok_iff`: integers of 64 bits, and doubles.
-/

namespace Gremlin

open Number (double scaled? divided powerOfTen largestPower)

namespace Json

/-! ## Grammar -/

/-- The sign of a number, the digits before and behind its point, and the digits of its exponent
with whether it is negative. -/
structure Parts where
  negative : Bool
  whole : List Char
  fraction : List Char := []
  power : Option (Bool × List Char) := none

/-- The digits of an exponent, which may have a sign. -/
inductive PowerText : List Char → Bool → List Char → List Char → Prop
  | bare {ds rest : List Char} (digits : IsDigits ds) : PowerText (ds ++ rest) false ds rest
  | plus {ds rest : List Char} (digits : IsDigits ds) :
      PowerText ('+' :: (ds ++ rest)) false ds rest
  | minus {ds rest : List Char} (digits : IsDigits ds) :
      PowerText ('-' :: (ds ++ rest)) true ds rest

/-- An exponent, or nothing. -/
inductive ScaleText : List Char → Option (Bool × List Char) → List Char → Prop
  | none {rest : List Char} : ScaleText rest none rest
  | power {letter : Char} {cs ds rest : List Char} {down : Bool}
      (known : letter = 'e' ∨ letter = 'E') (power : PowerText cs down ds rest) :
      ScaleText (letter :: cs) (some (down, ds)) rest

/-- A point and digits, or nothing. -/
inductive FractionText : List Char → List Char → List Char → Prop
  | none {rest : List Char} : FractionText rest [] rest
  | digits {ds rest : List Char} (digits : IsDigits ds) : FractionText ('.' :: (ds ++ rest)) ds rest

/-- A number without its sign. -/
def NumeralText (cs : List Char) (p : Parts) (rest : List Char) : Prop :=
  ∃ behind after, IsWhole p.whole ∧ cs = p.whole ++ behind ∧
    FractionText behind p.fraction after ∧ ScaleText after p.power rest

/-- A number. -/
def NumberText (cs : List Char) (p : Parts) (rest : List Char) : Prop :=
  ∃ numeral, (p.negative = true ∧ Symbol '-' cs numeral ∨
    p.negative = false ∧ Blanks cs numeral) ∧ NumeralText numeral p rest

/-! ## Meaning -/

/-- The magnitude of a significand that is raised by an exponent on top of a given one, unless it
is infinite. An exponent that is too long to be counted leaves zero or nothing finite. -/
def raised? (n : Nat) (start : Int) (down : Bool) (ds : List Char) : Option Nat :=
  let e := Nat.ofDigitChars 10 ds 0
  if e ≤ exponentLimit then scaled? n (if down then start - e else start + e)
  else if n ≠ 0 && !down then none
  else some 0

/-- The same for an exponent that may be missing. -/
def powered? (n : Nat) (start : Int) : Option (Bool × List Char) → Option Nat
  | none => scaled? n start
  | some (down, ds) => raised? n start down ds

namespace Parts

variable (p : Parts)

/-- The number that the digits before the point make as long as it has 64 bits, and the digits
that are left over. -/
def front : Nat × List Char := collect significandLimit 0 p.whole

/-- The same with the digits behind the point. -/
def significand : Nat × List Char := collect significandLimit p.front.1 p.fraction

/-- The exponent of the significand: the digits that were left over before the point raise it, and
those that were taken behind the point lower it. -/
def point : Int := p.front.2.length - (p.fraction.length - p.significand.2.length : Nat)

/-- The whole number of the sign and the digits before the point. -/
def integer : Int :=
  if p.negative then -(Nat.ofDigitChars 10 p.whole 0 : Int) else Nat.ofDigitChars 10 p.whole 0

/-- Whether the number is whole and has 64 bits. -/
def isShort : Bool := p.fraction.isEmpty && p.power.isNone && p.front.2.isEmpty

/-- The magnitude, unless it is infinite. -/
def magnitude? : Option Nat :=
  if p.isShort then some (double.nearest p.front.1 1) else powered? p.significand.1 p.point p.power

/-- The double that the number stands for. What is out of range is infinite. -/
def decoded : Double := .ofMagnitude p.negative (p.magnitude?.getD double.infinity)

/-- What is read from the number, unless it is out of range. -/
def numeral? : Option Numeral :=
  if p.isShort then some (.ofWhole p.negative p.front.1)
  else (powered? p.significand.1 p.point p.power).map fun w => .real (.ofMagnitude p.negative w)

end Parts

/-- An integer of 64 bits: a number without fraction and without exponent. Zero has no sign. -/
def IntegerText (cs : List Char) (n : Int64) (rest : List Char) : Prop :=
  ∃ p : Parts, NumberText cs p rest ∧ p.fraction = [] ∧ p.power = none ∧
    n.toInt = p.integer ∧ (p.negative = true → n ≠ 0)

/-- A number that stands for a finite double. -/
def DoubleText (cs : List Char) (d : Double) (rest : List Char) : Prop :=
  ∃ p : Parts, NumberText cs p rest ∧ p.decoded.isFinite = true ∧ d = p.decoded

/-! ## What ends a number -/

/-- What goes on with neither an exponent nor its digits. -/
def ScaleStops (power : Option (Bool × List Char)) (rest : List Char) : Prop :=
  startsWithDigit rest = false ∧ (power = none → ∀ c ∈ rest.head?, c ≠ 'e' ∧ c ≠ 'E')

/-- What does not go on with a number of these parts. -/
def Parts.Stops (p : Parts) (rest : List Char) : Prop :=
  ScaleStops p.power rest ∧ (p.fraction = [] → p.power = none → ∀ c ∈ rest.head?, c ≠ '.')

theorem Ended.stops {rest : List Char} (ended : Ended rest) (p : Parts) : p.Stops rest :=
  ⟨⟨ended.startsWithDigit, fun _ c member => (ended c member).2.2⟩,
    fun _ _ c member => (ended c member).2.1⟩

theorem startsWithDigit_behindDigits (cs : List Char) :
    startsWithDigit (behindDigits cs) = false := by
  unfold behindDigits
  induction cs with
  | nil => rfl
  | cons c cs ih =>
    cases digit : c.isDigit with
    | true => simpa [digit] using ih
    | false => simp [digit, startsWithDigit]

theorem ScaleText.stop {cs rest : List Char} {power : Option (Bool × List Char)}
    (scale : ScaleText cs power rest) (stops : ScaleStops power rest) :
    startsWithDigit cs = false := by
  cases scale with
  | none => exact stops.1
  | power known => rcases known with rfl | rfl <;> rfl

/-! ## Digits -/

/-- All digits are collected iff the number they make is within the limit. -/
theorem collect_eq_nil_iff {limit n m : Nat} {ds : List Char} (within : n ≤ limit) :
    collect limit n ds = (m, []) ↔
      Nat.ofDigitChars 10 ds n ≤ limit ∧ m = Nat.ofDigitChars 10 ds n := by
  constructor
  · intro collected
    induction ds generalizing n with
    | nil =>
      cases collected
      exact ⟨within, rfl⟩
    | cons c ds ih =>
      rw [collect] at collected
      split at collected
      · next fits =>
        rw [Nat.ofDigitChars_cons, Nat.mul_comm 10]
        exact ih fits collected
      · cases collected
  · rintro ⟨fits, rfl⟩
    exact collect_eq fits

theorem collect_le {limit n : Nat} (ds : List Char) (within : n ≤ limit) :
    (collect limit n ds).1 ≤ limit := by
  induction ds generalizing n with
  | nil => exact within
  | cons c ds ih =>
    rw [collect]
    split
    · next fits => exact ih fits
    · exact within

/-! ## Readers -/

/-- What a reader of doubles makes of a text, if the magnitude is not infinite. -/
def Gives (read : Except Fault (Double × List Char)) (negative : Bool) (w? : Option Nat)
    (rest : List Char) : Prop :=
  ∀ d behind, read = .ok (d, behind) ↔ w?.map (.ofMagnitude negative) = some d ∧ behind = rest

section Doubles

variable {negative : Bool} {n : Nat} {start : Int} {cs rest : List Char}

theorem finishNumber_gives (e : Int) :
    Gives (finishNumber negative n e rest) negative (scaled? n e) rest := by
  intro d behind
  unfold finishNumber
  cases scaled? n e with
  | none => simp
  | some w => simp [eq_comm]

theorem Gives.real {read : Except Fault (Double × List Char)} {w? : Option Nat}
    (gives : Gives read negative w? rest) {m : Numeral} {behind : List Char} :
    (read.map fun (d, rest) => (Numeral.real d, rest)) = .ok (m, behind) ↔
      (w?.map fun w => Numeral.real (.ofMagnitude negative w)) = some m ∧ behind = rest := by
  constructor
  · intro taken
    obtain ⟨⟨d, after⟩, read, same⟩ := map_eq_ok.1 taken
    cases same
    obtain ⟨made, rfl⟩ := (gives _ _).1 read
    obtain ⟨w, rfl, rfl⟩ := Option.map_eq_some_iff.1 made
    exact ⟨rfl, rfl⟩
  · rintro ⟨made, rfl⟩
    obtain ⟨w, rfl, rfl⟩ := Option.map_eq_some_iff.1 made
    rw [(gives _ _).2 ⟨rfl, rfl⟩]
    rfl

theorem exponentSign_of_text {down : Bool} {ds : List Char} (text : PowerText cs down ds rest) :
    IsDigits ds ∧ exponentSign cs = (down, ds ++ rest) := by
  cases text with
  | bare digits =>
    obtain ⟨c, tail, rfl⟩ := List.exists_cons_of_ne_nil digits.1
    have digit : c.isDigit = true := digits.2 c List.mem_cons_self
    have minus : c ≠ '-' := Number.ne_minus_of_isDigit digit
    have plus : c ≠ '+' := by rintro rfl; cases digit
    exact ⟨digits, by simp [exponentSign, minus, plus]⟩
  | plus digits => exact ⟨digits, rfl⟩
  | minus digits => exact ⟨digits, rfl⟩

theorem readExponent_gives {down : Bool} {ds : List Char} (text : PowerText cs down ds rest)
    (stop : startsWithDigit rest = false) :
    Gives (readExponent negative n start cs) negative (raised? n start down ds) rest := by
  obtain ⟨digits, sign⟩ := exponentSign_of_text text
  have run : digitRun (ds ++ rest) = ds := digitRun_append digits.2 stop
  have behind : behindDigits (ds ++ rest) = rest := behindDigits_append digits.2 stop
  have within : 0 ≤ exponentLimit := Nat.zero_le _
  obtain ⟨c, tail, rfl⟩ := List.exists_cons_of_ne_nil digits.1
  have digit : c.isDigit = true := digits.2 c List.mem_cons_self
  rw [List.cons_append] at sign run behind
  rw [readExponent, sign]
  dsimp only
  rw [if_neg (by simp [digit]), run, behind, raised?]
  cases collected : collect exponentLimit 0 (c :: tail) with
  | mk m extra =>
    cases extra with
    | nil =>
      obtain ⟨fits, rfl⟩ := (collect_eq_nil_iff within).1 collected
      rw [if_pos fits]
      exact finishNumber_gives _
    | cons d extra =>
      have large : ¬ Nat.ofDigitChars 10 (c :: tail) 0 ≤ exponentLimit := by
        intro fits
        rw [collect_eq fits] at collected
        cases collected
      rw [if_neg large]
      dsimp only
      split
      · simp [Gives]
      · simp [Gives, eq_comm]

theorem readScale_gives {power : Option (Bool × List Char)} (text : ScaleText cs power rest)
    (stops : ScaleStops power rest) :
    Gives (readScale negative n start cs) negative (powered? n start power) rest := by
  cases text with
  | none =>
    have finished : readScale negative n start cs = finishNumber negative n start cs := by
      unfold readScale
      split
      · exact absurd rfl (stops.2 rfl _ rfl).1
      · exact absurd rfl (stops.2 rfl _ rfl).2
      · rfl
    rw [finished]
    exact finishNumber_gives _
  | power known power => rcases known with rfl | rfl <;> exact readExponent_gives power stops.1

theorem readFraction_gives {ds after : List Char} {power : Option (Bool × List Char)}
    (digits : IsDigits ds) (scale : ScaleText after power rest) (stops : ScaleStops power rest) :
    Gives (readFraction negative n start (ds ++ after)) negative
      (powered? (collect significandLimit n ds).1
        (start - (ds.length - (collect significandLimit n ds).2.length : Nat)) power) rest := by
  have stop := scale.stop stops
  rw [readFraction, if_pos (startsWithDigit_append digits after), digitRun_append digits.2 stop,
    behindDigits_append digits.2 stop]
  exact readScale_gives scale stops

end Doubles

/-- What is read from a number, if nothing goes on with it. -/
theorem readNumeral_gives {p : Parts} {cs rest behind : List Char} {m : Numeral}
    (text : NumeralText cs p rest) (stops : p.Stops rest) :
    readNumeral p.negative cs = .ok (m, behind) ↔ p.numeral? = some m ∧ behind = rest := by
  obtain ⟨negative, whole, fraction, power⟩ := p
  obtain ⟨tail, after, isWhole, rfl, fractionText, scale⟩ := text
  obtain ⟨scaleStops, pointStops⟩ := stops
  dsimp only at isWhole fractionText scale scaleStops pointStops ⊢
  have stop := scale.stop scaleStops
  have stop' : startsWithDigit tail = false := by
    cases fractionText with
    | none => exact stop
    | digits => rfl
  rw [readNumeral_whole isWhole stop']
  -- Without a fraction and an exponent the number may be an integer.
  cases fractionText with
  | digits digits =>
    have long : Parts.isShort ⟨negative, whole, fraction, power⟩ = false := by
      simp [Parts.isShort, digits.1]
    rw [Parts.numeral?, long]
    exact (readFraction_gives digits scale scaleStops).real
  | none =>
    cases scale with
    | power known power =>
      have long (scale : Bool × List Char) :
          Parts.isShort ⟨negative, whole, [], some scale⟩ = false := by simp [Parts.isShort]
      rw [Parts.numeral?, long]
      rcases known with rfl | rfl <;> exact (readExponent_gives power scaleStops.1).real
    | none =>
      have point : Parts.point ⟨negative, whole, [], none⟩ =
          (collect significandLimit 0 whole).2.length := by
        simp [Parts.point, Parts.significand, Parts.front]
      have short : Parts.isShort ⟨negative, whole, [], none⟩ =
          (collect significandLimit 0 whole).2.isEmpty := rfl
      rw [Parts.numeral?, short, point]
      dsimp only
      split
      · exact absurd rfl (pointStops rfl rfl _ rfl)
      · exact absurd rfl (scaleStops.2 rfl _ rfl).1
      · exact absurd rfl (scaleStops.2 rfl _ rfl).2
      · split
        · simp [Parts.front, eq_comm]
        · exact (finishNumber_gives _).real

/-! ## What is read is a number -/

theorem ne_of_mem_head {cs : List Char} {letter : Char} (other : ∀ tail, cs ≠ letter :: tail) :
    ∀ c ∈ cs.head?, c ≠ letter := by
  rintro c member rfl
  obtain ⟨tail, same⟩ := List.head?_eq_some_iff.1 member
  exact other tail same

theorem powerText_of_starts {cs : List Char}
    (starts : startsWithDigit (exponentSign cs).2 = true) :
    PowerText cs (exponentSign cs).1 (digitRun (exponentSign cs).2)
      (behindDigits (exponentSign cs).2) := by
  unfold exponentSign at starts ⊢
  split at starts
  · next rest =>
    have text : PowerText ('-' :: (digitRun rest ++ behindDigits rest)) true (digitRun rest)
        (behindDigits rest) := .minus (isDigits_digitRun starts)
    rwa [digitRun_append_behindDigits] at text
  · next rest =>
    have text : PowerText ('+' :: (digitRun rest ++ behindDigits rest)) false (digitRun rest)
        (behindDigits rest) := .plus (isDigits_digitRun starts)
    rwa [digitRun_append_behindDigits] at text
  · have text : PowerText (digitRun cs ++ behindDigits cs) false (digitRun cs)
        (behindDigits cs) := .bare (isDigits_digitRun starts)
    rwa [digitRun_append_behindDigits] at text

section Taken

variable {negative : Bool} {n : Nat} {start : Int} {cs : List Char} {x : Double × List Char}

theorem exists_powerText (taken : readExponent negative n start cs = .ok x) :
    ∃ down ds rest, PowerText cs down ds rest ∧ startsWithDigit rest = false := by
  have starts : startsWithDigit (exponentSign cs).2 = true := by
    unfold readExponent at taken
    split at taken
    · cases taken
    · next sign =>
      rw [sign]
      split at taken
      · cases taken
      · next digit => simpa [startsWithDigit] using digit
  exact ⟨_, _, _, powerText_of_starts starts, startsWithDigit_behindDigits _⟩

theorem exists_scaleText (stop : startsWithDigit cs = false)
    (taken : readScale negative n start cs = .ok x) :
    ∃ power rest, ScaleText cs power rest ∧ ScaleStops power rest := by
  unfold readScale at taken
  split at taken
  · obtain ⟨down, ds, rest, power, ended⟩ := exists_powerText taken
    exact ⟨_, rest, .power (.inl rfl) power, ended, nofun⟩
  · obtain ⟨down, ds, rest, power, ended⟩ := exists_powerText taken
    exact ⟨_, rest, .power (.inr rfl) power, ended, nofun⟩
  · next lower upper =>
    exact ⟨none, cs, .none, stop, fun _ c member =>
      ⟨ne_of_mem_head lower c member, ne_of_mem_head upper c member⟩⟩

theorem exists_fractionText (taken : readFraction negative n start cs = .ok x) :
    ∃ ds after power rest, IsDigits ds ∧ cs = ds ++ after ∧ ScaleText after power rest ∧
      ScaleStops power rest := by
  unfold readFraction at taken
  split at taken
  · next starts =>
    obtain ⟨power, rest, scale, stops⟩ :=
      exists_scaleText (startsWithDigit_behindDigits cs) taken
    exact ⟨_, _, power, rest, isDigits_digitRun starts, (digitRun_append_behindDigits cs).symm,
      scale, stops⟩
  · split at taken <;> cases taken

end Taken

theorem exists_numeralText {negative : Bool} {cs : List Char} {x : Numeral × List Char}
    (taken : readNumeral negative cs = .ok x) :
    ∃ p rest, p.negative = negative ∧ NumeralText cs p rest ∧ p.Stops rest := by
  unfold readNumeral at taken
  split at taken
  · cases taken
  next c behind =>
  split at taken
  · cases taken
  next digit =>
  split at taken
  · cases taken
  next noZero =>
  have digit : c.isDigit = true := by simpa using digit
  have isWhole := isWhole_digitRun digit (Bool.eq_false_iff.2 noZero)
  have run : digitRun (c :: behind) = c :: digitRun behind := by simp [digitRun, digit]
  have whole := (digitRun_append_behindDigits (c :: behind)).symm
  have stop := startsWithDigit_behindDigits (c :: behind)
  rw [run] at whole taken
  split at taken
  split at taken
  · next inner point =>
    rw [point] at whole
    obtain ⟨⟨d, after⟩, read, -⟩ := map_eq_ok.1 taken
    obtain ⟨ds, after, power, rest, digits, rfl, scale, stops⟩ := exists_fractionText read
    exact ⟨⟨negative, _, ds, power⟩, rest, rfl, ⟨_, after, isWhole, whole, .digits digits, scale⟩,
      stops, fun none => absurd none digits.1⟩
  · next inner lower =>
    rw [lower] at whole
    obtain ⟨⟨d, after⟩, read, -⟩ := map_eq_ok.1 taken
    obtain ⟨down, ds, rest, power, ended⟩ := exists_powerText read
    exact ⟨⟨negative, _, [], some (down, ds)⟩, rest, rfl,
      ⟨_, _, isWhole, whole, .none, .power (.inl rfl) power⟩, ⟨ended, nofun⟩, nofun⟩
  · next inner upper =>
    rw [upper] at whole
    obtain ⟨⟨d, after⟩, read, -⟩ := map_eq_ok.1 taken
    obtain ⟨down, ds, rest, power, ended⟩ := exists_powerText read
    exact ⟨⟨negative, _, [], some (down, ds)⟩, rest, rfl,
      ⟨_, _, isWhole, whole, .none, .power (.inr rfl) power⟩, ⟨ended, nofun⟩, nofun⟩
  · next point lower upper =>
    refine ⟨⟨negative, _, [], none⟩, _, rfl, ⟨_, _, isWhole, whole, .none, .none⟩,
      ⟨stop, fun _ c member => ⟨?_, ?_⟩⟩, fun _ _ => ne_of_mem_head point⟩
    · exact ne_of_mem_head lower c member
    · exact ne_of_mem_head upper c member

/-! ## Numbers behind blanks -/

theorem starts_of_numeralText {cs rest : List Char} {p : Parts} (text : NumeralText cs p rest) :
    startsWithDigit cs = true := by
  obtain ⟨behind, _, isWhole, rfl, -⟩ := text
  exact startsWithDigit_append isWhole.1 behind

theorem readNumber_gives {wanted : Wanted} {p : Parts} {cs rest behind : List Char} {m : Numeral}
    (text : NumberText cs p rest) (stops : p.Stops rest) :
    readNumber wanted cs = .ok (m, behind) ↔ p.numeral? = some m ∧ behind = rest := by
  obtain ⟨numeral, sign, text⟩ := text
  have gives : readNumeral p.negative numeral = .ok (m, behind) ↔
      p.numeral? = some m ∧ behind = rest := readNumeral_gives text stops
  rcases sign with ⟨negative, minus⟩ | ⟨negative, blanks⟩
  · rw [readNumber, (symbol_iff (by decide)).1 minus]
    rwa [negative] at gives
  · have starts := starts_of_numeralText text
    obtain ⟨c, tail, rfl⟩ : ∃ c tail, numeral = c :: tail := by
      cases numeral with
      | nil => cases starts
      | cons c tail => exact ⟨c, tail, rfl⟩
    have digit : c.isDigit = true := starts
    rw [readNumber, skipBlanks_eq_of_blanks blanks, skipBlanks_cons (isBlank_of_isDigit digit)]
    rw [negative] at gives
    split
    · next minus => exact absurd (List.cons.inj minus).1 (Number.ne_minus_of_isDigit digit)
    · rwa [if_pos starts]

theorem exists_numberText {wanted : Wanted} {cs : List Char} {x : Numeral × List Char}
    (taken : readNumber wanted cs = .ok x) : ∃ p rest, NumberText cs p rest ∧ p.Stops rest := by
  unfold readNumber at taken
  split at taken
  · next numeral start =>
    obtain ⟨p, rest, negative, text, stops⟩ := exists_numeralText taken
    exact ⟨p, rest, ⟨numeral, .inl ⟨negative, symbol_of_skipBlanks start⟩, text⟩, stops⟩
  · split at taken
    · obtain ⟨p, rest, negative, text, stops⟩ := exists_numeralText taken
      exact ⟨p, rest, ⟨_, .inr ⟨negative, blanks_skipBlanks cs⟩, text⟩, stops⟩
    · cases taken

/-- Which texts are read as numbers, and what is read. -/
theorem readNumber_eq_ok_iff {wanted : Wanted} {cs rest : List Char} {m : Numeral} :
    readNumber wanted cs = .ok (m, rest) ↔
      ∃ p : Parts, NumberText cs p rest ∧ p.Stops rest ∧ p.numeral? = some m := by
  constructor
  · intro taken
    obtain ⟨p, rest', text, stops⟩ := exists_numberText taken
    obtain ⟨read, rfl⟩ := (readNumber_gives text stops).1 taken
    exact ⟨p, text, stops, read⟩
  · rintro ⟨p, text, stops, read⟩
    exact (readNumber_gives text stops).2 ⟨read, rfl⟩

end Json

/-! ## Range -/

namespace Number

theorem nearest_finite_of_short {n : Nat} (short : n ≤ Json.significandLimit) :
    double.nearest n 1 < double.infinity :=
  Nat.lt_of_le_of_lt (nearest_mono wide_double short) (by decide +kernel)

/-- Division by a power of ten does not lead out of range. -/
theorem divided_le {w n : Nat} (known : w ≤ double.infinity) : divided w n ≤ w := by
  have quotient {w : Nat} (known : w ≤ double.infinity) (n : Nat) :
      double.quotient w (powerOfTen n) ≤ w := by
    have one := one_le_powerOfTen n
    have rounds := rounds_quotient wide_double w (units_pos_of_value (zero_lt_one.trans_le one))
    exact rounds.le_of_le (Format.rounds_value known) (div_le_self (Format.value_nonneg w) one)
  induction w, n using divided.induct with
  | case1 w n small =>
    rw [divided, if_pos small]
    exact quotient known n
  | case2 n large =>
    rw [divided, if_neg large, if_pos rfl]
  | case3 w n large nonzero ih =>
    rw [divided, if_neg large, if_neg nonzero]
    have less := quotient known largestPower
    exact (ih (less.trans known)).trans less

theorem scaled?_finite {n w : Nat} {e : Int} (short : n ≤ Json.significandLimit)
    (scaled : scaled? n e = some w) : w < double.infinity := by
  have finite := nearest_finite_of_short short
  unfold scaled? at scaled
  dsimp only at scaled
  split at scaled
  · split at scaled
    · split at scaled
      · cases scaled
      · next other =>
        rw [← Option.some.inj scaled]
        exact Nat.lt_of_le_of_ne (rounds_product wide_double _ _).known other
    · split at scaled
      · rw [← Option.some.inj scaled]
        decide
      · cases scaled
  · rw [← Option.some.inj scaled]
    exact Nat.lt_of_le_of_lt (divided_le finite.le) finite

end Number

namespace Json

theorem magnitude?_finite {p : Parts} {w : Nat} (known : p.magnitude? = some w) :
    w < double.infinity := by
  have front : p.front.1 ≤ significandLimit := collect_le _ (Nat.zero_le _)
  have significand : p.significand.1 ≤ significandLimit := collect_le _ front
  have raised {start : Int} {down : Bool} {ds : List Char}
      (known : raised? p.significand.1 start down ds = some w) : w < double.infinity := by
    unfold raised? at known
    dsimp only at known
    split at known
    · exact Number.scaled?_finite significand known
    · split at known
      · cases known
      · cases known
        decide
  unfold Parts.magnitude? at known
  split at known
  · cases known
    exact Number.nearest_finite_of_short front
  · cases power : p.power with
    | none =>
      rw [power] at known
      exact Number.scaled?_finite significand known
    | some scale =>
      rw [power] at known
      exact raised known

/-- A number is in range unless its magnitude is infinite. -/
theorem isFinite_decoded_iff {p : Parts} :
    p.decoded.isFinite = true ↔ ∃ w, p.magnitude? = some w := by
  unfold Parts.decoded Double.isFinite
  cases known : p.magnitude? with
  | none =>
    rw [Option.getD_none, Double.magnitude_ofMagnitude Double.infinity_lt_codes]
    simp
  | some w =>
    have finite := magnitude?_finite known
    rw [Option.getD_some, Double.magnitude_ofMagnitude (finite.trans Double.infinity_lt_codes)]
    simp [finite]

theorem toDouble_ofWhole (negative : Bool) (n : Nat) :
    (Numeral.ofWhole negative n).toDouble = .ofMagnitude negative (double.nearest n 1) := by
  unfold Numeral.ofWhole
  cases negative with
  | false =>
    have sign : ¬ ((n : Int) < 0) := Int.not_lt.2 (Int.natCast_nonneg n)
    simp [Numeral.toDouble, Double.ofInt, sign]
  | true =>
    rw [if_neg (by decide)]
    split
    · next signed => simp [Numeral.toDouble, Double.ofInt, signed.1]
    · rfl

/-- What is read from a number in range is, as a double, what the number stands for. -/
theorem numeral?_toDouble (p : Parts) :
    p.numeral?.map Numeral.toDouble = p.magnitude?.map (.ofMagnitude p.negative) := by
  unfold Parts.numeral? Parts.magnitude?
  split
  · exact congrArg some (toDouble_ofWhole _ _)
  · cases powered? p.significand.1 p.point p.power <;> rfl

theorem exists_numeral_iff {p : Parts} {d : Double} :
    (∃ m, p.numeral? = some m ∧ m.toDouble = d) ↔ p.decoded.isFinite = true ∧ d = p.decoded := by
  rw [← Option.map_eq_some_iff, numeral?_toDouble, isFinite_decoded_iff, Option.map_eq_some_iff]
  constructor
  · rintro ⟨w, known, rfl⟩
    exact ⟨⟨w, known⟩, by rw [Parts.decoded, known, Option.getD_some]⟩
  · rintro ⟨⟨w, known⟩, rfl⟩
    exact ⟨w, known, by rw [Parts.decoded, known, Option.getD_some]⟩

/-! ## Integers and doubles -/

theorem readDouble_eq_ok_iff {cs rest : List Char} {d : Double} (ended : Ended rest) :
    readDouble cs = .ok (d, rest) ↔ DoubleText cs d rest := by
  unfold readDouble
  constructor
  · intro taken
    obtain ⟨⟨m, behind⟩, read, same⟩ := map_eq_ok.1 taken
    cases same
    obtain ⟨p, text, -, numeral⟩ := readNumber_eq_ok_iff.1 read
    exact ⟨p, text, exists_numeral_iff.1 ⟨m, numeral, rfl⟩⟩
  · rintro ⟨p, text, decoded⟩
    obtain ⟨m, numeral, rfl⟩ := exists_numeral_iff.2 decoded
    have read : readNumber .real cs = .ok (m, rest) :=
      readNumber_eq_ok_iff.2 ⟨p, text, ended.stops p, numeral⟩
    rw [read]
    rfl

theorem isShort_iff {p : Parts} : p.isShort = true ↔
    p.fraction = [] ∧ p.power = none ∧ p.front = (Nat.ofDigitChars 10 p.whole 0, []) := by
  have all : p.front.2 = [] ↔ p.front = (Nat.ofDigitChars 10 p.whole 0, []) := by
    constructor
    · intro none
      have collected : p.front = (p.front.1, []) := Prod.ext rfl none
      rw [collected, ((collect_eq_nil_iff (Nat.zero_le _)).1 collected).2]
    · intro same
      rw [same]
  rw [← all]
  simp [Parts.isShort, and_assoc]

theorem ofWhole_eq_integer_iff {negative : Bool} {n : Nat} {k : Int} :
    Numeral.ofWhole negative n = .integer k ↔
      k = (if negative then -(n : Int) else n) ∧
        (negative = true → 0 < n ∧ n ≤ 0x8000000000000000) := by
  unfold Numeral.ofWhole
  cases negative with
  | false => simp [eq_comm]
  | true =>
    rw [if_neg (by decide)]
    split
    · next signed => simp [signed, eq_comm]
    · next unsigned => simp [unsigned]

theorem le_of_ofWhole {negative : Bool} {n : Nat} {k : Int}
    (read : Numeral.ofWhole negative n = .integer k) : -2 ^ 63 ≤ k := by
  obtain ⟨rfl, signed⟩ := ofWhole_eq_integer_iff.1 read
  cases negative with
  | false => exact Int.le_trans (by decide) (Int.natCast_nonneg n)
  | true =>
    have bound := (signed rfl).2
    show (-2 ^ 63 : Int) ≤ -n
    omega

/-- What is read from a number is an integer of 64 bits iff the number is one. -/
theorem exists_integer_iff {p : Parts} {n : Int64} :
    (∃ k, p.numeral? = some (.integer k) ∧ k < 0x8000000000000000 ∧ n = .ofInt k) ↔
      p.fraction = [] ∧ p.power = none ∧ n.toInt = p.integer ∧ (p.negative = true → n ≠ 0) := by
  constructor
  · rintro ⟨k, numeral, small, rfl⟩
    unfold Parts.numeral? at numeral
    split at numeral
    · next short =>
      obtain ⟨fraction, power, front⟩ := isShort_iff.1 short
      rw [front] at numeral
      obtain ⟨value, signed⟩ := ofWhole_eq_integer_iff.1 (Option.some.inj numeral)
      have large := le_of_ofWhole (Option.some.inj numeral)
      have same : (Int64.ofInt k).toInt = k := Int64.toInt_ofInt_of_le large small
      refine ⟨fraction, power, same.trans value, fun negative zero => ?_⟩
      have positive := (signed negative).1
      rw [negative, if_pos rfl] at value
      rw [zero, value] at same
      exact absurd same (by simp; omega)
    · obtain ⟨w, -, other⟩ := Option.map_eq_some_iff.1 numeral
      cases other
  · rintro ⟨fraction, power, value, sign⟩
    have lower := n.le_toInt
    have upper := n.toInt_lt
    have size : Nat.ofDigitChars 10 p.whole 0 = n.toInt.natAbs := by
      rw [value, Parts.integer]
      split <;> simp
    have fits : Nat.ofDigitChars 10 p.whole 0 ≤ significandLimit := by
      unfold significandLimit
      omega
    have front : p.front = (Nat.ofDigitChars 10 p.whole 0, []) := collect_eq fits
    have short : p.isShort = true := isShort_iff.2 ⟨fraction, power, front⟩
    refine ⟨n.toInt, ?_, upper, n.ofInt_toInt.symm⟩
    rw [Parts.numeral?, if_pos short, front]
    refine congrArg some (ofWhole_eq_integer_iff.2 ⟨value, fun negative => ?_⟩)
    have nonzero : n.toInt ≠ 0 := fun zero => sign negative (Int64.toInt_inj.1 zero)
    rw [size]
    exact ⟨Int.natAbs_pos.2 nonzero, by omega⟩

theorem readInteger_eq_ok_iff {cs rest : List Char} {n : Int64} (ended : Ended rest) :
    readInteger cs = .ok (n, rest) ↔ IntegerText cs n rest := by
  constructor
  · intro taken
    unfold readInteger at taken
    split at taken
    · cases taken
    · cases taken
    · next k behind read =>
      split at taken
      · next small =>
        cases taken
        obtain ⟨p, text, -, numeral⟩ := readNumber_eq_ok_iff.1 read
        exact ⟨p, text, exists_integer_iff.1 ⟨k, numeral, small, rfl⟩⟩
      · cases taken
  · rintro ⟨p, text, integer⟩
    obtain ⟨k, numeral, small, rfl⟩ := exists_integer_iff.2 integer
    have read : readNumber .integer cs = .ok (.integer k, rest) :=
      readNumber_eq_ok_iff.2 ⟨p, text, ended.stops p, numeral⟩
    rw [readInteger, read]
    exact if_pos small

end Json

end Gremlin
