import Gremlin.Json.Decode
import Gremlin.Json.Encode
import Gremlin.Proofs.Json.Compounds
import Gremlin.Proofs.Number.Numeral
import Mathlib.Data.List.Forall2

/-!
# What is written is read

The texts that strings, integers, lists, objects and tagged values are written as, and what
their readers make of them. Each is read to its end whatever follows it, provided that a
number is not followed by what goes on with it.

Results:
1. `text_string`: a string is read back from its escapes.
2. `readInteger_integerText`: an integer of 64 bits is read back from its digits.
3. `readTagged_tagged`: what becomes of a tagged value is up to the reader of its variant.
4. `ReadsBack.elements`, `Fails.elements`: a list is read back if its elements are; it fails
   with the first element that fails.
-/

namespace Gremlin.Json

open Number (digits)

/-! ## Strings -/

theorem hexFour?_codeUnit : ∀ n < 0x20,
    hexFour? '0' '0' (Nat.digitChar (n / 16)) (Nat.digitChar (n % 16)) = some n := by
  decide

/-- A character is read back from how it is escaped. -/
theorem StringBody.escapeChar {c : Char} {cs text rest : List Char}
    (body : StringBody cs text rest) : StringBody (escapeChar c ++ cs) (c :: text) rest := by
  unfold Json.escapeChar
  split
  · next same => subst same; exact .escape (.simple rfl) body
  · next noQuote =>
    split
    · next same => subst same; exact .escape (.simple rfl) body
    · next noBackslash =>
      split
      · next same => subst same; exact .escape (.simple rfl) body
      · split
        · next same => subst same; exact .escape (.simple rfl) body
        · split
          · next same => subst same; exact .escape (.simple rfl) body
          · split
            · next same => subst same; exact .escape (.simple rfl) body
            · split
              · next same => subst same; exact .escape (.simple rfl) body
              · split
                · next control =>
                  have unit : Escape ('u' :: (codeUnit c ++ cs)) (.ofNat c.toNat) cs :=
                    .unit (hexFour?_codeUnit c.toNat control)
                      ⟨by unfold isLeading; grind, by unfold isTrailing; grind⟩
                  rw [Char.ofNat_toNat] at unit
                  exact .escape unit body
                · next noControl =>
                  exact .plain ⟨noQuote, noBackslash, by simpa [isControl] using noControl⟩ body

theorem body_escape (cs rest : List Char) : StringBody (escape cs ++ '"' :: rest) cs rest := by
  induction cs with
  | nil => exact .close
  | cons c cs ih =>
    rw [escape, List.flatMap_cons, List.append_assoc]
    exact ih.escapeChar

theorem toList_string (text : String) :
    (string text).toList = '"' :: (escape text.toList ++ ['"']) := by
  simp [string]

/-- A string is read back from its escapes. -/
theorem text_string (text : String) (rest : List Char) :
    Text ((string text).toList ++ rest) text rest := by
  have split : (string text).toList ++ rest = '"' :: (escape text.toList ++ '"' :: rest) := by
    simp [toList_string]
  rw [split]
  exact ⟨_, .refl _, body_escape text.toList rest⟩

theorem key_string (key : String) (rest : List Char) :
    Key ((string key).toList ++ ':' :: rest) key rest :=
  ⟨_, text_string key _, .refl _⟩

/-! ## Integers -/

theorem le_ofDigitChars (ds : List Char) (n : Nat) : n ≤ Nat.ofDigitChars 10 ds n := by
  induction ds generalizing n with
  | nil => simp
  | cons c ds ih =>
    rw [Nat.ofDigitChars_cons]
    exact Nat.le_trans (by omega) (ih _)

/-- Digits are collected as long as the number stays within the limit. -/
theorem collect_eq {limit n : Nat} {ds : List Char} (bound : Nat.ofDigitChars 10 ds n ≤ limit) :
    collect limit n ds = (Nat.ofDigitChars 10 ds n, []) := by
  induction ds generalizing n with
  | nil => simp [collect]
  | cons c ds ih =>
    rw [Nat.ofDigitChars_cons, Nat.mul_comm] at bound
    have fits := Nat.le_trans (le_ofDigitChars ds _) bound
    rw [collect, Nat.ofDigitChars_cons, Nat.mul_comm 10, if_pos fits]
    exact ih bound

/-- Only zero starts with a zero. -/
theorem eq_zero_of_head_digits {n : Nat} (zero : (digits n).head? = some '0') : n = 0 := by
  unfold digits at zero
  induction n using Nat.strong_induction_on with
  | _ n ih =>
    rw [Nat.toDigits_eq_if (by decide)] at zero
    split at zero
    · simpa using zero
    · next large =>
      have some : Nat.toDigits 10 (n / 10) ≠ [] := Nat.toDigits_ne_nil
      obtain ⟨c, rest, split⟩ := List.exists_cons_of_ne_nil some
      have smaller : n / 10 = 0 := by
        refine ih (n / 10) (by omega) ?_
        rw [split] at zero ⊢
        exact zero
      omega

theorem isWhole_digits (n : Nat) : IsWhole (digits n) := by
  have all : ∀ d ∈ digits n, d.isDigit = true := fun d => Number.isDigit_of_mem_digits
  refine ⟨⟨Nat.toDigits_ne_nil, all⟩, fun zero => ?_⟩
  rw [eq_zero_of_head_digits zero]
  rfl

theorem readNumeral_digits {negative : Bool} {n : Nat} (bound : n ≤ significandLimit)
    {rest : List Char} (ended : Ended rest) :
    readNumeral negative (digits n ++ rest) = .ok (.ofWhole negative n, rest) := by
  have whole := isWhole_digits n
  have all := whole.1.2
  have value := Number.ofDigitChars_digits n
  have run : digitRun (digits n ++ rest) = digits n := digitRun_append all ended.startsWithDigit
  have behind : behindDigits (digits n ++ rest) = rest :=
    behindDigits_append all ended.startsWithDigit
  have collected : collect significandLimit 0 (digits n) = (n, []) := by
    rw [collect_eq (by rw [value]; exact bound), value]
  obtain ⟨c, tail, split, digit⟩ := Number.exists_digit_of_digits n
  rw [split] at run behind collected whole ⊢
  rw [List.cons_append] at run behind ⊢
  rw [readNumeral, if_neg (by simp [digit]), if_neg (whole.zero_alone ended.startsWithDigit), run,
    collected, behind]
  dsimp only
  -- What ends the number is neither a fraction nor an exponent.
  split
  · exact absurd rfl (ended _ rfl).2.1
  · exact absurd rfl (ended _ rfl).2.2.1
  · exact absurd rfl (ended _ rfl).2.2.2
  · rfl

theorem readNumber_minus {wanted : Wanted} {n : Nat} (bound : n ≤ significandLimit)
    {rest : List Char} (ended : Ended rest) :
    readNumber wanted ('-' :: (digits n ++ rest)) = .ok (.ofWhole true n, rest) := by
  rw [readNumber, skipBlanks_cons (by decide)]
  exact readNumeral_digits bound ended

theorem readNumber_digits {wanted : Wanted} {n : Nat} (bound : n ≤ significandLimit)
    {rest : List Char} (ended : Ended rest) :
    readNumber wanted (digits n ++ rest) = .ok (.ofWhole false n, rest) := by
  have read : readNumeral false (digits n ++ rest) = _ := readNumeral_digits bound ended
  have starts := startsWithDigit_append (isWhole_digits n).1 rest
  obtain ⟨c, tail, split, digit⟩ := Number.exists_digit_of_digits n
  rw [split, List.cons_append] at read starts ⊢
  rw [readNumber, skipBlanks_cons (isBlank_of_isDigit digit)]
  split
  · next first => exact absurd (List.cons.inj first).1 (Number.ne_minus_of_isDigit digit)
  · rw [if_pos starts, read]

/-- An integer of 64 bits is read back from its digits. -/
theorem readInteger_integerText (n : Int64) {rest : List Char} (ended : Ended rest) :
    readInteger ((integerText n).toList ++ rest) = .ok (n, rest) := by
  have lower := n.le_toInt
  have upper := n.toInt_lt
  have number : readNumber .integer ((integerText n).toList ++ rest) =
      .ok (.integer n.toInt, rest) := by
    -- The magnitude of the smallest integer has no positive counterpart, but fits in 64 bits.
    rcases lt_or_ge n.toInt 0 with negative | sign
    · have bound : (-n.toInt).toNat ≤ significandLimit := by unfold significandLimit; omega
      rw [integerText_of_neg negative, List.cons_append, readNumber_minus bound ended,
        Numeral.ofWhole, if_neg (by decide), if_pos (by omega)]
      have same : (-((-n.toInt).toNat : Int)) = n.toInt := by omega
      rw [same]
    · have bound : n.toInt.toNat ≤ significandLimit := by unfold significandLimit; omega
      rw [integerText_of_nonneg sign, readNumber_digits bound ended, Numeral.ofWhole,
        if_pos (by decide), Int.toNat_of_nonneg sign]
  rw [readInteger, number]
  dsimp only
  rw [if_pos (by omega), Int64.ofInt_toInt]

/-! ## Reading back -/

/-- Wherever the text stands, it is read to its end. -/
def ReadsBack {α : Type} (read : Reader α) (text : String) (a : α) : Prop :=
  ∀ rest, Ended rest → read (text.toList ++ rest) = .ok (a, rest)

/-- Wherever the text stands, it is JSON for something else. -/
def Fails {α : Type} (read : Reader α) (text : String) : Prop :=
  ∀ rest, Ended rest → ∃ f, read (text.toList ++ rest) = .error f ∧ f.cause.category = .mistyped

theorem ended_cons {c : Char} (stop : c.isDigit = false ∧ c ≠ '.' ∧ c ≠ 'e' ∧ c ≠ 'E')
    (rest : List Char) : Ended (c :: rest) :=
  ended_of_symbol (.refl _) stop

theorem readsBack_string (wanted : Wanted) (text : String) :
    ReadsBack (readText wanted) (string text) text :=
  fun rest _ => readText_eq_ok_iff.2 (text_string text rest)

theorem readsBack_integer (n : Int64) : ReadsBack readInteger (integerText n) n :=
  fun _ ended => readInteger_integerText n ended

theorem word_boolean (b : Bool) (rest : List Char) :
    Word (booleanWord b) ((boolean b).toList ++ rest) rest := by
  have same : (boolean b).toList = booleanWord b := by cases b <;> simp [boolean, booleanWord]
  rw [same]
  exact .refl _

theorem readsBack_boolean (b : Bool) : ReadsBack readBoolean (boolean b) b :=
  fun rest _ => readBoolean_eq_ok_iff.2 (word_boolean b rest)

section Whole

variable {α : Type} {read : Reader α} {text : String} {a : α}

/-- A text that holds nothing else. -/
theorem ReadsBack.readAll (back : ReadsBack read text a) : readAll read text = .ok a := by
  have taken := back [] (by simp [Ended])
  rw [List.append_nil] at taken
  rw [Json.readAll, taken]
  rfl

theorem Fails.readAll (fails : Fails read text) :
    ∃ f, readAll read text = .error f ∧ f.cause.category = .mistyped := by
  obtain ⟨f, taken, mistyped⟩ := fails [] (by simp [Ended])
  rw [List.append_nil] at taken
  exact ⟨f, by rw [Json.readAll, taken], mistyped⟩

end Whole

/-! ## Tagged values -/

section Tagged

variable {α β : Type} {read : Reader α} {text : String} {a : α}

theorem ReadsBack.map (back : ReadsBack read text a) (make : α → β) :
    ReadsBack (fun cs => (read cs).map fun (a, rest) => (make a, rest)) text (make a) := by
  intro rest ended
  dsimp only
  rw [back rest ended, Except.map]

theorem Fails.map (fails : Fails read text) (make : α → β) :
    Fails (fun cs => (read cs).map fun (a, rest) => (make a, rest)) text := by
  intro rest ended
  obtain ⟨f, taken, mistyped⟩ := fails rest ended
  dsimp only
  exact ⟨f, by rw [taken, Except.map], mistyped⟩

variable {variants : List (Variant α)} {v : Variant α} {name : String}

/-- What becomes of a tagged value is up to the reader of its variant. -/
theorem readTagged_tagged (found : variants.find? (·.name == name) = some v) (rest : List Char) :
    readTagged variants ((tagged name text).toList ++ rest) =
      (v.read (text.toList ++ '\x7d' :: rest)).bind fun (a, behind) => closeTagged a behind := by
  have split : (tagged name text).toList ++ rest =
      '\x7b' :: ((string name).toList ++ ':' :: (text.toList ++ '\x7d' :: rest)) := by
    simp [tagged, object]
  rw [split]
  exact readTagged_object found (.refl _) (key_string name _)

theorem ReadsBack.tagged (found : variants.find? (·.name == name) = some v)
    (back : ReadsBack v.read text a) : ReadsBack (readTagged variants) (tagged name text) a := by
  intro rest _
  rw [readTagged_tagged found, back _ (ended_cons (by decide) _)]
  exact closeTagged_of_symbol (.refl _)

theorem Fails.tagged (found : variants.find? (·.name == name) = some v)
    (fails : Fails v.read text) : Fails (readTagged variants) (tagged name text) := by
  intro rest _
  obtain ⟨f, taken, mistyped⟩ := fails ('\x7d' :: rest) (ended_cons (by decide) rest)
  exact ⟨f, by rw [readTagged_tagged found, taken, Except.bind], mistyped⟩

/-- A variant that carries one value. -/
theorem ReadsBack.ofValue {variants : List (Variant β)} {make : α → β}
    (found : variants.find? (·.name == name) = some (.ofValue name read make))
    (back : ReadsBack read text a) :
    ReadsBack (readTagged variants) (Json.tagged name text) (make a) :=
  (back.map make).tagged found

theorem Fails.ofValue {variants : List (Variant β)} {make : α → β}
    (found : variants.find? (·.name == name) = some (.ofValue name read make))
    (fails : Fails read text) : Fails (readTagged variants) (Json.tagged name text) :=
  (fails.map make).tagged found

end Tagged

/-! ## Lists -/

section Lists

variable {α : Type} {read : Reader α} {shrinks : Shrinks read} {write : α → String}

/-- The text of elements behind others, or of all elements: a comma stands before each but
the first of all. -/
def listText (write : α → String) : Bool → List α → List Char
  | _, [] => []
  | true, a :: as => (write a).toList ++ listText write false as
  | false, a :: as => ',' :: ((write a).toList ++ listText write false as)

theorem toList_list (write : α → String) (as : List α) :
    (list (as.map write)).toList = '[' :: (listText write true as ++ [']']) := by
  have later (as : List α) (a : α) :
      [','].intercalate ((a :: as).map fun a => (write a).toList) =
        (write a).toList ++ listText write false as := by
    induction as generalizing a with
    | nil => simp [listText]
    | cons b as ih =>
      have behind := ih b
      rw [List.map_cons] at behind
      rw [List.map_cons, List.map_cons, List.intercalate_cons_cons, behind, listText]
      simp
  have elements :
      [','].intercalate (as.map fun a => (write a).toList) = listText write true as := by
    cases as with
    | nil => rfl
    | cons a as => rw [later, listText]
  rw [← elements]
  simp [list, Function.comp_def]

/-- The text of an element starts with a character that is no blank and closes no list. -/
def Begins (text : String) : Prop :=
  ∃ c tail, text.toList = c :: tail ∧ isBlank c = false ∧ c ≠ ']'

theorem Begins.skipBlanks (begins : Begins text) (rest : List Char) :
    Starts (text.toList ++ rest) ∧ Json.skipBlanks (text.toList ++ rest) = text.toList ++ rest := by
  obtain ⟨c, tail, split, ink, noClosing⟩ := begins
  rw [split, List.cons_append]
  have stays := skipBlanks_cons ink (tail ++ rest)
  exact ⟨⟨c, tail ++ rest, stays, noClosing⟩, stays⟩

theorem nextElement_listText (first : Bool) {a : α} (begins : Begins (write a)) (as : List α)
    (rest : List Char) :
    nextElement first (listText write first (a :: as) ++ rest) =
      .ok (true, (write a).toList ++ (listText write false as ++ rest)) := by
  obtain ⟨starts, same⟩ := begins.skipBlanks (listText write false as ++ rest)
  cases first with
  | true => rw [listText, List.append_assoc, nextElement_first starts, same]
  | false =>
    rw [listText, List.cons_append, List.append_assoc, nextElement_next (.refl _) starts, same]

theorem ended_listText (write : α → String) (as : List α) (rest : List Char) :
    Ended (listText write false as ++ ']' :: rest) := by
  cases as with
  | nil => exact ended_cons (by decide) _
  | cons a as => exact ended_cons (by decide) _

/-- A list is read as the list of what its elements are read as. -/
theorem ReadsBack.each {as bs : List α} (begins : ∀ a ∈ as, Begins (write a))
    (back : List.Forall₂ (fun a b => ReadsBack read (write a) b) as bs) (first : Bool)
    (rest : List Char) :
    readElements read @shrinks first (listText write first as ++ ']' :: rest) = .ok (bs, rest) := by
  induction back generalizing first with
  | nil => exact readElements_close (nextElement_false_iff.2 (.refl _))
  | @cons a b as bs back _ ih =>
    have next := nextElement_listText first (begins a List.mem_cons_self) as (']' :: rest)
    have taken := back _ (ended_listText write as rest)
    rw [readElements_next next taken, ih fun b member => begins b (List.mem_cons_of_mem _ member),
      Except.map]

/-- A list is read back if its elements are. -/
theorem ReadsBack.elements {as : List α} (begins : ∀ a ∈ as, Begins (write a))
    (back : ∀ a ∈ as, ReadsBack read (write a) a) (first : Bool) (rest : List Char) :
    readElements read @shrinks first (listText write first as ++ ']' :: rest) = .ok (as, rest) :=
  ReadsBack.each begins (List.forall₂_same.2 back) first rest

/-- A list fails with the first of its elements that fails. -/
theorem Fails.elements {as : List α} (begins : ∀ a ∈ as, Begins (write a))
    (each : ∀ a ∈ as, ReadsBack read (write a) a ∨ Fails read (write a))
    (failing : ∃ a ∈ as, Fails read (write a)) (first : Bool) (rest : List Char) :
    ∃ f, readElements read @shrinks first (listText write first as ++ ']' :: rest) = .error f ∧
      f.cause.category = .mistyped := by
  induction as generalizing first with
  | nil =>
    obtain ⟨_, member, _⟩ := failing
    cases member
  | cons a as ih =>
    have next := nextElement_listText first (begins a List.mem_cons_self) as (']' :: rest)
    have ended := ended_listText write as rest
    rcases Classical.em (Fails read (write a)) with fails | noFail
    · obtain ⟨f, taken, mistyped⟩ := fails _ ended
      exact ⟨f, readElements_failed next taken, mistyped⟩
    · -- An element that is read back is not the one that fails, so that one comes later.
      have taken := ((each a List.mem_cons_self).resolve_right noFail) _ ended
      obtain ⟨b, member, fails⟩ := failing
      have later : b ∈ as := (List.mem_cons.1 member).resolve_left fun same => noFail (same ▸ fails)
      obtain ⟨f, read, mistyped⟩ := ih (fun b member => begins b (List.mem_cons_of_mem _ member))
        (fun b member => each b (List.mem_cons_of_mem _ member)) ⟨b, later, fails⟩ false
      exact ⟨f, by rw [readElements_next next taken, read, Except.map], mistyped⟩

end Lists

end Gremlin.Json
