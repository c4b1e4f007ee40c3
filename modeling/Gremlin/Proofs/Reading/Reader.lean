import Gremlin.Proofs.Reading.Value

/-!
# Readers

A reader takes an item from the front of a text and gives what follows it. The items of
statements end where a comma, a closing parenthesis or nothing follows, and a reader for
them is right if it takes exactly the text of the item whenever such an end follows:
`Reads`. Each way of putting readers together keeps this.

Results:
1. `literalBody_escape`: an escaped literal ends at its own quote, whatever it holds.
2. `Reads.quoted`, `Reads.bare`: literals and bare words are told apart and read whole.
3. `Reads.listed`: a list is read with its length.
4. `Reads.many`: repeated items are read as often as they stand there.
-/

namespace Gremlin

/-! ## Definitions -/

/-- Takes an item from the front of a text and gives what follows. -/
abbrev Reader (α : Type) := List Char → Option (α × List Char)

namespace Reader

variable {α β : Type}

/-- Changes what is read. -/
def map (f : α → β) (p : Reader α) : Reader β := fun cs => (p cs).map (Prod.map f id)

/-- The text of an escaped literal, behind its opening quote. The first quote that is not
behind a backslash ends it. -/
def literalBody : Reader (List Char)
  | [] => none
  | '\'' :: rest => some ([], rest)
  | '\\' :: c :: rest => (literalBody rest).map (Prod.map (c :: ·) id)
  | c :: rest => (literalBody rest).map (Prod.map (c :: ·) id)

/-- An item that is a literal or a bare word. -/
def atom (quoted : String → Option α) (bare : List Char → Option α) : Reader α
  | '\'' :: cs => do
    let (body, rest) ← literalBody cs
    return (← quoted (String.ofList body), rest)
  | cs => do
    return (← bare (cs.takeWhile isBare), cs.dropWhile isBare)

/-- Two items with a comma between them. -/
def pair (p : Reader α) (q : Reader β) : Reader (α × β) := fun cs =>
  match p cs with
  | some (a, ',' :: rest) => map (a, ·) q rest
  | _ => none

/-- An item, or none before a closing parenthesis. -/
def optional (p : Reader α) : Reader (Option α)
  | [] => some (none, [])
  | ')' :: rest => some (none, ')' :: rest)
  | cs => map some p cs

/-- One item or more, with commas between them. The number bounds how many there are. -/
def separated (p : Reader α) : Nat → Reader (List α)
  | 0, _ => none
  | n + 1, cs =>
    match p cs with
    | some (a, ',' :: rest) => map (a :: ·) (separated p n) rest
    | some (a, rest) => some ([a], rest)
    | none => none

/-- Any number of items with commas between them, before a closing parenthesis. -/
def listed (p : Reader α) : Reader (List α)
  | [] => some ([], [])
  | ')' :: rest => some ([], ')' :: rest)
  | cs => separated p cs.length cs

/-- An item in parentheses. -/
def enclosed (p : Reader α) : Reader α
  | '(' :: cs =>
    match p cs with
    | some (a, ')' :: rest) => some (a, rest)
    | _ => none
  | _ => none

/-- Items without anything between them, as long as there is one. The number bounds how
many there are. -/
def many (p : Reader α) : Nat → Reader (List α)
  | 0, cs => some ([], cs)
  | n + 1, cs =>
    match p cs with
    | some (a, rest) => map (a :: ·) (many p n) rest
    | none => some ([], cs)

end Reader

open Reader

/-- Whether an item can end before a text. -/
def Ends (ends rest : List Char) : Prop := ∀ c ∈ rest.head?, c ∈ ends

/-- What follows an argument: a comma or a closing parenthesis. -/
def argumentEnds : List Char := [',', ')']

/-- What follows all arguments. -/
def closing : List Char := [')']

/-- The reader takes exactly this text, before any text at which items end, and reads
this from it. -/
def Reads {α : Type} (ends : List Char) (p : Reader α) (text : List Char) (a : α) : Prop :=
  ∀ rest, Ends ends rest → p (text ++ rest) = some (a, rest)

/-- The text is a bare word. -/
def IsWord (word : List Char) : Prop := word ≠ [] ∧ ∀ c ∈ word, isBare c = true

instance (word : List Char) : Decidable (IsWord word) :=
  decidable_of_iff ((!word.isEmpty && word.all isBare) = true) (by simp [IsWord])

/-- The text begins with a character other than a closing parenthesis. -/
def Opens (text : List Char) : Prop := ∃ c rest, text = c :: rest ∧ c ≠ ')'

/-! ## Literals and words -/

/-- An escaped literal ends at its own quote, whatever it holds. -/
theorem literalBody_escape (cs rest : List Char) :
    literalBody (Quoting.escape cs ++ '\'' :: rest) = some (cs, rest) := by
  induction cs with
  | nil => rfl
  | cons c cs ih =>
    by_cases special : Quoting.isSpecial c = true
    · rw [Quoting.escape, if_pos special, List.cons_append, List.cons_append, literalBody, ih]
      rfl
    · rw [Quoting.escape, if_neg special, List.cons_append]
      simp only [Quoting.isSpecial, Bool.or_eq_true, beq_iff_eq, not_or] at special
      -- A character that is not special neither ends the literal nor hides the next one.
      rw [literalBody, ih]
      · rfl
      · exact fun quote => special.2 quote
      · exact fun _ _ slash _ => special.1 slash

/-- The longest run of characters of one sort ends where one of another sort follows. -/
theorem run_append {p : Char → Bool} {run : List Char} (rest : List Char)
    (all : ∀ c ∈ run, p c = true) (boundary : ∀ c ∈ rest.head?, p c = false) :
    (run ++ rest).takeWhile p = run ∧ (run ++ rest).dropWhile p = rest := by
  rw [List.takeWhile_append_of_pos all, List.dropWhile_append_of_pos all]
  cases rest with
  | nil => simp
  | cons c rest =>
    have outside : p c = false := boundary c rfl
    simp [outside]

theorem ends_cons {ends : List Char} {c : Char} (member : c ∈ ends) (rest : List Char) :
    Ends ends (c :: rest) := by
  intro d first
  rwa [← Option.some.inj first]

theorem isBare_of_mem_argumentEnds {c : Char} (member : c ∈ argumentEnds) : isBare c = false := by
  simp only [argumentEnds, List.mem_cons, List.not_mem_nil, or_false] at member
  rcases member with rfl | rfl <;> decide

/-- A word of bare characters does not begin like a literal. -/
theorem ne_quote_of_isBare {c : Char} (bare : isBare c = true) : c ≠ '\'' := by
  rintro rfl
  exact absurd bare (by decide)

theorem IsWord.opens {word : List Char} (isWord : IsWord word) : Opens word := by
  obtain ⟨nonempty, all⟩ := isWord
  obtain ⟨c, rest, rfl⟩ := List.exists_cons_of_ne_nil nonempty
  refine ⟨c, rest, rfl, ?_⟩
  rintro rfl
  exact absurd (all ')' List.mem_cons_self) (by decide)

theorem opens_quote (s : String) : Opens (Quoting.escaped.quote s).toList := by
  rw [Quoting.toList_quote_escaped]
  exact ⟨'\'', _, rfl, by decide⟩

theorem Opens.ne_nil {text : List Char} (opens : Opens text) : text ≠ [] := by
  obtain ⟨c, rest, rfl, _⟩ := opens
  exact List.cons_ne_nil c rest

theorem Opens.append {text : List Char} (opens : Opens text) (rest : List Char) :
    Opens (text ++ rest) := by
  obtain ⟨c, tail, rfl, first⟩ := opens
  exact ⟨c, tail ++ rest, rfl, first⟩

/-! ## Lists of texts -/

theorem opens_intercalate {text : List Char} {texts : List (List Char)} (opens : Opens text) :
    Opens ([','].intercalate (text :: texts)) := by
  cases texts with
  | nil => rwa [List.intercalate_singleton]
  | cons second texts =>
    rw [List.intercalate_cons_cons, List.append_assoc]
    exact opens.append _

theorem length_le_length_intercalate {γ : Type} {write : γ → List Char} {items : List γ}
    (nonempty : ∀ item ∈ items, write item ≠ []) :
    items.length ≤ ([','].intercalate (items.map write)).length := by
  induction items with
  | nil => exact Nat.zero_le _
  | cons item items ih =>
    have positive : 0 < (write item).length :=
      List.length_pos_iff.2 (nonempty item List.mem_cons_self)
    have others := ih fun i member => nonempty i (List.mem_cons_of_mem _ member)
    cases items with
    | nil =>
      rw [List.map_singleton, List.intercalate_singleton]
      exact positive
    | cons second items =>
      simp only [List.map_cons, List.intercalate_cons_cons, List.length_append,
        List.length_cons, List.length_nil] at others ⊢
      omega

namespace Reads

variable {α β γ : Type} {ends text : List Char} {p : Reader α} {a : α}
variable {write : γ → List Char} {made : γ → α} {items : List γ}

/-- A literal is read whole. -/
theorem quoted {quoted : String → Option α} {bare : List Char → Option α} {s : String}
    (made : quoted s = some a) :
    Reads ends (atom quoted bare) (Quoting.escaped.quote s).toList a := by
  intro rest _
  have body : literalBody (Quoting.escape s.toList ++ ['\''] ++ rest) = some (s.toList, rest) := by
    rw [List.append_assoc]
    exact literalBody_escape _ _
  rw [Quoting.toList_quote_escaped, List.cons_append, atom, body]
  simp [made]

/-- A bare word is read whole. -/
theorem bare {quoted : String → Option α} {bare : List Char → Option α} {word : List Char}
    (isWord : IsWord word) (made : bare word = some a) :
    Reads argumentEnds (atom quoted bare) word a := by
  intro rest stop
  obtain ⟨nonempty, all⟩ := isWord
  obtain ⟨taken, dropped⟩ :=
    run_append rest all fun c member => isBare_of_mem_argumentEnds (stop c member)
  obtain ⟨c, tail, rfl⟩ := List.exists_cons_of_ne_nil nonempty
  have first : c ≠ '\'' := ne_quote_of_isBare (all c List.mem_cons_self)
  rw [List.cons_append] at taken dropped ⊢
  rw [atom, taken, dropped, made]
  · rfl
  · exact fun _ split => first (List.cons.inj split).1

/-! ## Combinations -/

/-- What ends any argument ends the last one. -/
theorem last (reads : Reads argumentEnds p text a) : Reads closing p text a := by
  intro rest stop
  refine reads rest fun c member => ?_
  rw [List.mem_singleton.1 (stop c member)]
  decide

theorem map (reads : Reads ends p text a) (f : α → β) : Reads ends (p.map f) text (f a) := by
  intro rest stop
  rw [Reader.map, reads rest stop]
  rfl

theorem pair {q : Reader β} {b : β} {second : List Char} (first : Reads argumentEnds p text a)
    (reads : Reads ends q second b) :
    Reads ends (Reader.pair p q) (text ++ ',' :: second) (a, b) := by
  intro rest stop
  have comma : Ends argumentEnds (',' :: (second ++ rest)) := ends_cons List.mem_cons_self _
  rw [List.append_assoc, List.cons_append, Reader.pair, first _ comma]
  exact reads.map (a, ·) rest stop

theorem optional_some (opens : Opens text) (reads : Reads ends p text a) :
    Reads ends (Reader.optional p) text (some a) := by
  intro rest stop
  obtain ⟨c, tail, rfl, first⟩ := opens
  have item := reads.map some rest stop
  rw [List.cons_append] at item ⊢
  rw [Reader.optional, item]
  · exact List.cons_ne_nil c _
  · exact fun _ split => first (List.cons.inj split).1

theorem optional_none : Reads closing (Reader.optional p) [] none := by
  intro rest stop
  cases rest with
  | nil => rfl
  | cons c rest =>
    obtain rfl := List.mem_singleton.1 (stop c rfl)
    rfl

/-- Items of a list, one after the other. -/
theorem separated (nonempty : items ≠ [])
    (reads : ∀ item ∈ items, Reads argumentEnds p (write item) (made item)) {n : Nat}
    (enough : items.length ≤ n) :
    Reads closing (Reader.separated p n) ([','].intercalate (items.map write))
      (items.map made) := by
  induction items generalizing n with
  | nil => exact absurd rfl nonempty
  | cons item items ih =>
    obtain ⟨n, rfl⟩ : ∃ k, n = k + 1 := ⟨n - 1, by simp only [List.length_cons] at enough; omega⟩
    have first := reads item List.mem_cons_self
    intro rest stop
    rw [Reader.separated]
    cases items with
    | nil =>
      have item := first.last rest stop
      simp only [List.map_cons, List.map_nil, List.intercalate_singleton, item]
      split
      · next split =>
        -- The text after the item is closed, so no comma follows.
        obtain ⟨_, rfl⟩ := Prod.mk.inj (Option.some.inj split)
        exact absurd (stop ',' rfl) (by decide)
      · next split => cases split; rfl
      · next split => cases split
    | cons second items =>
      have comma (behind : List Char) : Ends argumentEnds (',' :: behind) :=
        ends_cons List.mem_cons_self _
      have others := ih (by simp) (fun i member => reads i (List.mem_cons_of_mem _ member))
        (n := n) (by simpa using enough)
      simp only [List.map_cons, List.intercalate_cons_cons, List.append_assoc] at others ⊢
      rw [List.singleton_append, first _ (comma _)]
      exact others.map (made item :: ·) rest stop

/-- A list is read with its length. -/
theorem listed (reads : ∀ item ∈ items, Reads argumentEnds p (write item) (made item))
    (opens : ∀ item ∈ items, Opens (write item)) :
    Reads closing (Reader.listed p) ([','].intercalate (items.map write)) (items.map made) := by
  intro rest stop
  cases items with
  | nil =>
    cases rest with
    | nil => rfl
    | cons c rest =>
      obtain rfl := List.mem_singleton.1 (stop c rfl)
      rfl
  | cons item items =>
    have enough := length_le_length_intercalate fun i member => (opens i member).ne_nil
    have read := separated (List.cons_ne_nil item items) reads
      (n := ([','].intercalate ((item :: items).map write) ++ rest).length)
      (Nat.le_trans enough (by simp)) rest stop
    obtain ⟨c, tail, split, first⟩ : Opens ([','].intercalate ((item :: items).map write)) :=
      opens_intercalate (opens item List.mem_cons_self)
    rw [split, List.cons_append] at read ⊢
    rw [Reader.listed, read]
    · exact List.cons_ne_nil c _
    · exact fun _ split => first (List.cons.inj split).1

/-- An item in parentheses is read with them. -/
theorem enclosed (reads : Reads closing p text a) (rest : List Char) :
    Reader.enclosed p ('(' :: (text ++ ')' :: rest)) = some (a, rest) := by
  have close : Ends closing (')' :: rest) := ends_cons List.mem_cons_self _
  rw [Reader.enclosed, reads _ close]
  rfl

/-- Items that end themselves are read as often as they stand there. -/
theorem many {rest : List Char} {n : Nat}
    (whole : ∀ item ∈ items, ∀ behind, p (write item ++ behind) = some (made item, behind))
    (stop : p rest = none) (enough : items.length ≤ n) :
    Reader.many p n ((items.map write).flatten ++ rest) = some (items.map made, rest) := by
  induction items generalizing n with
  | nil =>
    cases n with
    | zero => rfl
    | succ n => rw [List.map_nil, List.flatten_nil, List.nil_append, Reader.many, stop]; rfl
  | cons item items ih =>
    obtain ⟨n, rfl⟩ : ∃ k, n = k + 1 := ⟨n - 1, by simp only [List.length_cons] at enough; omega⟩
    have others := ih (fun i member => whole i (List.mem_cons_of_mem _ member))
      (by simpa using enough)
    rw [List.map_cons, List.flatten_cons, List.append_assoc, Reader.many,
      whole item List.mem_cons_self]
    simp [Reader.map, others]

end Reads

end Gremlin
