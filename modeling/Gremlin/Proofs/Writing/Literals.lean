import Gremlin.Proofs.Writing.Glyphs

/-!
# Literals end themselves

An escaped literal is scanned from its opening quote: a backslash takes the next character as it
is, and the first quote without one ends the literal. What follows is not looked at, so literals
can stand one after the other, with commas between them and in them.

Results:
1. `scan_quote`: a literal is scanned whole, whatever follows it.
2. `quote_prefix_iff`: no literal is the beginning of another one.
3. `scanAll_quoteAll`: a list is scanned literal after literal.
4. `byteSize_quote`: how much longer than its text a literal is.
5. `quote_selfDelimiting`: all of this.
-/

namespace Gremlin.Quoting

open Reader (literalBody)

/-! ## Scanning -/

/-- A literal at the front of a text, and what follows it. -/
def scan : Reader String
  | '\'' :: cs => (literalBody cs).map (Prod.map String.ofList id)
  | _ => none

theorem literalBody_cons {c : Char} (cs : List Char) (plain : isSpecial c = false) :
    literalBody (c :: cs) = (literalBody cs).map (Prod.map (c :: ·) id) := by
  obtain ⟨slash, quote⟩ : c ≠ '\\' ∧ c ≠ '\'' := by simpa [isSpecial] using plain
  rw [literalBody]
  · exact fun same => quote same
  · exact fun _ _ same _ => slash same

theorem length_lt_of_literalBody {cs body rest : List Char}
    (scanned : literalBody cs = some (body, rest)) : rest.length < cs.length := by
  -- A backslash takes two characters at once, so the induction looks at two.
  induction cs using List.twoStepInduction generalizing body with
  | nil => cases scanned
  | singleton c =>
    by_cases quote : c = '\''
    · cases quote
      cases scanned
      exact Nat.one_pos
    · rw [literalBody] at scanned
      · cases scanned
      · exact fun same => quote same
      · intro _ _ _ same
        cases same
  | cons_cons c d cs behind next =>
    cases special : isSpecial c with
    | false =>
      rw [literalBody_cons _ special] at scanned
      obtain ⟨⟨inner, _⟩, read, same⟩ := Option.map_eq_some_iff.1 scanned
      cases same
      exact Nat.lt_succ_of_lt (next d read)
    | true =>
      obtain rfl | rfl : c = '\\' ∨ c = '\'' := by simpa [isSpecial] using special
      · obtain ⟨⟨inner, _⟩, read, same⟩ := Option.map_eq_some_iff.1 scanned
        cases same
        exact Nat.lt_succ_of_lt (Nat.lt_succ_of_lt (behind read))
      · cases scanned
        exact Nat.lt_succ_self _

theorem length_lt_of_scan {cs rest : List Char} {s : String} (scanned : scan cs = some (s, rest)) :
    rest.length < cs.length := by
  unfold scan at scanned
  split at scanned
  · obtain ⟨⟨body, _⟩, read, same⟩ := Option.map_eq_some_iff.1 scanned
    cases same
    exact Nat.lt_succ_of_lt (length_lt_of_literalBody read)
  · cases scanned

/-- A literal and, as long as a comma follows, the literals behind it. -/
def scanFrom (cs : List Char) : Option (List String × List Char) :=
  match _h : scan cs with
  | some (s, ',' :: rest) => (scanFrom rest).map (Prod.map (s :: ·) id)
  | some (s, rest) => some ([s], rest)
  | none => none
termination_by cs.length
decreasing_by
  have shorter := length_lt_of_scan _h
  exact Nat.lt_of_succ_lt shorter

/-- The literals at the front of a text, and what follows them. -/
def scanAll : Reader (List String)
  | '\'' :: cs => scanFrom ('\'' :: cs)
  | cs => some ([], cs)

/-! ## Literals -/

/-- A literal is scanned whole, whatever follows it. -/
theorem scan_quote (s : String) (rest : List Char) :
    scan ((escaped.quote s).toList ++ rest) = some (s, rest) := by
  have body : literalBody (escape s.toList ++ ['\''] ++ rest) = some (s.toList, rest) := by
    rw [List.append_assoc]
    exact literalBody_escape _ _
  rw [toList_quote_escaped, List.cons_append, scan, body]
  exact congrArg (fun text => some (text, rest)) String.ofList_toList

theorem scan_quote_end (s : String) : scan (escaped.quote s).toList = some (s, []) := by
  simpa using scan_quote s []

/-- No literal is the beginning of another one. -/
theorem quote_prefix_iff {s t : String} :
    (escaped.quote s).toList <+: (escaped.quote t).toList ↔ s = t := by
  constructor
  · rintro ⟨rest, same⟩
    have read := scan_quote s rest
    rw [same, scan_quote_end] at read
    exact (Prod.mk.inj (Option.some.inj read)).1.symm
  · rintro rfl
    exact List.prefix_rfl

theorem quote_inj {s t : String} : escaped.quote s = escaped.quote t ↔ s = t :=
  ⟨fun same => quote_prefix_iff.1 (same ▸ List.prefix_rfl), congrArg _⟩

/-- A literal is longer than its text by the quotes and the backslashes. -/
theorem byteSize_quote (s : String) : (escaped.quote s).utf8ByteSize =
    s.utf8ByteSize + 2 + s.toList.countP isSpecial := by
  have size := Glyph.byteSize_write_escaped (Glyph.literal s)
  rw [Glyph.countP_isEscaped, Glyph.quotedChars_literal, Glyph.write_literal, Glyph.write_literal,
    String.ofList_toList, String.ofList_toList] at size
  have verbatim : (verbatim.quote s).utf8ByteSize = s.utf8ByteSize + 2 := by
    have one : "'".utf8ByteSize = 1 := rfl
    simp [quote, body, one]
    omega
  rw [size, verbatim]

/-! ## Lists -/

theorem toList_quoteAll_cons_cons (q : Quoting) (s t : String) (items : List String) :
    (q.quoteAll (s :: t :: items)).toList =
      (q.quote s).toList ++ ',' :: (q.quoteAll (t :: items)).toList := by
  simp [quoteAll]

section Behind

variable {cs rest : List Char} {s : String}

theorem scanFrom_of_comma (read : scan cs = some (s, ',' :: rest)) :
    scanFrom cs = (scanFrom rest).map (Prod.map (s :: ·) id) := by
  rw [scanFrom]
  split
  · next read' =>
    cases read.symm.trans read'
    rfl
  · next other read' =>
    cases read.symm.trans read'
    exact (other _ rfl).elim
  · next read' => cases read.symm.trans read'

theorem scanFrom_of_stop (read : scan cs = some (s, rest)) (stop : rest.head? ≠ some ',') :
    scanFrom cs = some ([s], rest) := by
  rw [scanFrom]
  split
  · next read' =>
    cases read.symm.trans read'
    exact absurd rfl stop
  · next read' =>
    cases read.symm.trans read'
    rfl
  · next read' => cases read.symm.trans read'

end Behind

/-- The literals of a list are scanned up to a text that begins with no comma. -/
theorem scanFrom_quoteAll (s : String) (items : List String) {rest : List Char}
    (stop : rest.head? ≠ some ',') :
    scanFrom ((escaped.quoteAll (s :: items)).toList ++ rest) = some (s :: items, rest) := by
  induction items generalizing s with
  | nil =>
    have single : (escaped.quoteAll [s]).toList = (escaped.quote s).toList := by simp [quoteAll]
    rw [single]
    exact scanFrom_of_stop (scan_quote s rest) stop
  | cons t items ih =>
    rw [toList_quoteAll_cons_cons, List.append_assoc, List.cons_append,
      scanFrom_of_comma (scan_quote s _), ih]
    rfl

theorem exists_quote_of_quoteAll (s : String) (items : List String) :
    ∃ tail, (escaped.quoteAll (s :: items)).toList = '\'' :: tail := by
  cases items with
  | nil => exact ⟨_, by simp [quoteAll]; rfl⟩
  | cons t items =>
    rw [toList_quoteAll_cons_cons, toList_quote_escaped]
    exact ⟨_, rfl⟩

/-- A list is scanned whole before a text that begins with neither a comma nor a quote. -/
theorem scanAll_quoteAll (items : List String) {rest : List Char}
    (stop : rest.head? ≠ some ',') (stop' : rest.head? ≠ some '\'') :
    scanAll ((escaped.quoteAll items).toList ++ rest) = some (items, rest) := by
  cases items with
  | nil =>
    show scanAll rest = some ([], rest)
    unfold scanAll
    split
    · exact absurd rfl stop'
    · rfl
  | cons s items =>
    have read := scanFrom_quoteAll s items stop
    obtain ⟨tail, first⟩ := exists_quote_of_quoteAll s items
    rw [first, List.cons_append] at read ⊢
    exact read

theorem scanAll_quoteAll_end (items : List String) :
    scanAll (escaped.quoteAll items).toList = some (items, []) := by
  have read : scanAll ((escaped.quoteAll items).toList ++ []) = some (items, []) :=
    scanAll_quoteAll items (by simp) (by simp)
  rwa [List.append_nil] at read

theorem quoteAll_inj {items items' : List String} :
    escaped.quoteAll items = escaped.quoteAll items' ↔ items = items' := by
  refine ⟨fun same => ?_, congrArg _⟩
  have read := scanAll_quoteAll_end items
  rw [same, scanAll_quoteAll_end] at read
  exact (Prod.mk.inj (Option.some.inj read)).1.symm

/-- The text of one literal is the text of a list of one item, and of no other list. -/
theorem quoteAll_eq_quote_iff {items : List String} {s : String} :
    escaped.quoteAll items = escaped.quote s ↔ items = [s] := by
  have single : escaped.quoteAll [s] = escaped.quote s := by simp [quoteAll]
  rw [← single, quoteAll_inj]

/-- A literal is scanned whole whatever follows it, so it is the beginning of no other literal. A
list is scanned literal after literal, up to the end or to a closing parenthesis, so its text is
that of no other list; what a single item holds is not taken for two items. A literal has two
bytes more than its text, and one more for every character that is escaped. -/
theorem quote_selfDelimiting :
    (∀ (s : String) (rest : List Char),
      scan ((escaped.quote s).toList ++ rest) = some (s, rest)) ∧
    (∀ s t : String,
      ((escaped.quote s).toList <+: (escaped.quote t).toList ↔ s = t) ∧
      (escaped.quote s = escaped.quote t ↔ s = t)) ∧
    (∀ items : List String,
      scanAll (escaped.quoteAll items).toList = some (items, []) ∧
      ∀ rest, scanAll ((escaped.quoteAll items).toList ++ ')' :: rest) =
        some (items, ')' :: rest)) ∧
    (∀ items items' : List String,
      escaped.quoteAll items = escaped.quoteAll items' ↔ items = items') ∧
    (∀ (s : String) (items : List String),
      escaped.quoteAll items = escaped.quote s ↔ items = [s]) ∧
    ∀ s : String, (escaped.quote s).utf8ByteSize =
      s.utf8ByteSize + 2 + s.toList.countP isSpecial := by
  refine ⟨scan_quote, fun s t => ⟨quote_prefix_iff, quote_inj⟩, fun items => ?_,
    fun items items' => quoteAll_inj, fun s items => quoteAll_eq_quote_iff, byteSize_quote⟩
  exact ⟨scanAll_quoteAll_end items, fun rest => scanAll_quoteAll items (by simp) (by simp)⟩

example : escaped.quoteAll ["a','b"] = "'a\\',\\'b'" := by decide
example : escaped.quoteAll ["a", "b"] = "'a','b'" := by decide

end Gremlin.Quoting
