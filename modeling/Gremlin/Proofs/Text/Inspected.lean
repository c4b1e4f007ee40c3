import Gremlin.Json.QuotedText
import Gremlin.Proofs.Session.Chronicle
import Gremlin.Proofs.SourceName
import Mathlib.Data.String.Basic

/-!
# Inspected text is read back

A message shows a text between double quotes. Whichever characters are shown as they are, by a
mark behind a backslash or by their code points, the text can be read back: inside the quotes a
backslash always begins an escape, and a double quote without one ends the text. So the line in
which a handle is shown for inspection says its kind and its text, and the message on a source
that was refused says the source.

Results:
1. `unescape_spelled`: a text is read back from between its quotes, whatever follows them.
2. `readLine_lineOf`: a kind and a text are read back from the line of a handle.
3. `shown_inj`: texts that are shown alike are the same.
4. `inspected_determines`: what inspection says of handles and of refused sources.
-/

namespace Gremlin.Text

open Json (hexDigit?)

/-! ## Spellings -/

/-- The characters with a mark of their own behind a backslash. -/
def marks : List (Char × Char) :=
  [('0', '\x00'), ('t', '\t'), ('n', '\n'), ('r', '\r'), ('"', '"'), ('\\', '\\')]

/-- The ways in which a character can be shown. -/
inductive Spells : Char → List Char → Prop
  /-- By its mark. -/
  | mark {m c : Char} (known : (m, c) ∈ marks) : Spells c ['\\', m]
  /-- By its code point. -/
  | code (c : Char) : Spells c (codePoint c)
  /-- As it is, unless it ends the text or begins an escape. -/
  | plain {c : Char} (quote : c ≠ '"') (slash : c ≠ '\\') : Spells c [c]

variable (spell : Char → List Char)

/-- A text in double quotes, each character of which is shown in some way. -/
def shown (text : String) : String :=
  "\"" ++ String.ofList (text.toList.flatMap spell) ++ "\""

/-- The line in which a handle is shown, each character in some way. -/
def lineOf (k : Kind) (text : String) : String :=
  "Traversal \x7b kind: " ++ shown spell k.name ++ ", text: " ++ shown spell text ++ " \x7d"

/-! ## Reading back -/

/-- Where a reader is between the quotes. -/
inductive Place
  /-- Between two characters. -/
  | between
  /-- Behind a backslash. -/
  | escape
  /-- Behind the letter of a code point. -/
  | brace
  /-- Inside a code point, of which this much is read. -/
  | code (n : Nat)

/-- Reads on up to the closing quote, and gives the text and what follows the quote. -/
def unescapeFrom : Place → List Char → Option (List Char × List Char)
  | _, [] => none
  | .between, c :: rest =>
    if c = '"' then some ([], rest)
    else if c = '\\' then unescapeFrom .escape rest
    else (unescapeFrom .between rest).map (Prod.map (c :: ·) id)
  | .escape, m :: rest =>
    if m = 'u' then unescapeFrom .brace rest
    else
      match marks.lookup m with
      | some c => (unescapeFrom .between rest).map (Prod.map (c :: ·) id)
      | none => none
  | .brace, c :: rest => if c = '\x7b' then unescapeFrom (.code 0) rest else none
  | .code n, c :: rest =>
    if c = '\x7d' then (unescapeFrom .between rest).map (Prod.map (Char.ofNat n :: ·) id)
    else
      match hexDigit? c with
      | some d => unescapeFrom (.code (16 * n + d)) rest
      | none => none

/-- A text behind its opening quote, and what follows the closing one. -/
def unescape : List Char → Option (List Char × List Char) := unescapeFrom .between

/-- Whether every double quote is behind a backslash that begins an escape. -/
def quotesEscaped : List Char → Bool
  | [] => true
  | '\\' :: _ :: rest => quotesEscaped rest
  | c :: rest => c != '"' && quotesEscaped rest

/-- The kind of a name. -/
def kindOf? (name : String) : Option Kind :=
  [Kind.root, .added, .vertex, .edge, .group].find? (·.name == name)

/-- A text that is shown behind a given one, and what follows it. -/
def readShown (before : String) (cs : List Char) : Option (String × List Char) := do
  match ← cs.dropPrefix? before.toList with
  | '"' :: rest => (unescape rest).map (Prod.map String.ofList id)
  | _ => none

/-- The kind and the text in the line of a handle. -/
def readLine (line : String) : Option (Kind × String) := do
  let (name, rest) ← readShown "Traversal \x7b kind: " line.toList
  let kind ← kindOf? name
  let (text, rest) ← readShown ", text: " rest
  if rest = " \x7d".toList then some (kind, text) else none

/-! ## Code points -/

theorem hexDigit?_digitChar {d : Nat} (small : d < 16) : hexDigit? (Nat.digitChar d) = some d :=
  (by decide : ∀ d < 16, hexDigit? (Nat.digitChar d) = some d) d small

theorem digitChar_plain {d : Nat} (small : d < 16) :
    Nat.digitChar d ≠ '\x7d' ∧ Nat.digitChar d ≠ '"' ∧ Nat.digitChar d ≠ '\\' :=
  (by decide : ∀ d < 16, Nat.digitChar d ≠ '\x7d' ∧ Nat.digitChar d ≠ '"' ∧
    Nat.digitChar d ≠ '\\') d small

theorem exists_digit_of_mem_toDigits {n : Nat} {c : Char} (member : c ∈ Nat.toDigits 16 n) :
    ∃ d < 16, c = Nat.digitChar d := by
  induction n using Nat.strongRecOn with
  | ind n ih =>
    rcases Nat.lt_or_ge n 16 with small | large
    · rw [Nat.toDigits_of_lt_base small] at member
      exact ⟨n, small, List.mem_singleton.1 member⟩
    · rw [Nat.toDigits_of_base_le (by decide) large] at member
      rcases List.mem_append.1 member with front | last
      · exact ih _ (Nat.div_lt_self (Nat.lt_of_lt_of_le (by decide) large) (by decide)) front
      · exact ⟨n % 16, Nat.mod_lt n (by decide), List.mem_singleton.1 last⟩

/-- The digits of a number are read as the number. -/
theorem unescapeFrom_toDigits (n : Nat) (rest : List Char) :
    unescapeFrom (.code 0) (Nat.toDigits 16 n ++ rest) = unescapeFrom (.code n) rest := by
  -- One digit, the last one, is read behind the number that the others make.
  have digit {d : Nat} (small : d < 16) (k : Nat) (rest : List Char) :
      unescapeFrom (.code k) (Nat.digitChar d :: rest) =
        unescapeFrom (.code (16 * k + d)) rest := by
    rw [unescapeFrom, if_neg (digitChar_plain small).1, hexDigit?_digitChar small]
  induction n using Nat.strongRecOn generalizing rest with
  | ind n ih =>
    rcases Nat.lt_or_ge n 16 with small | large
    · rw [Nat.toDigits_of_lt_base small, List.singleton_append, digit small, Nat.mul_zero,
        Nat.zero_add]
    · have fewer : n / 16 < n := Nat.div_lt_self (Nat.lt_of_lt_of_le (by decide) large) (by decide)
      rw [Nat.toDigits_of_base_le (by decide) large, List.append_assoc, ih _ fewer,
        List.singleton_append, digit (Nat.mod_lt n (by decide)), Nat.div_add_mod]

theorem unescapeFrom_codePoint (c : Char) (rest : List Char) :
    unescapeFrom .between (codePoint c ++ rest) =
      (unescapeFrom .between rest).map (Prod.map (c :: ·) id) := by
  have behind := unescapeFrom_toDigits c.toNat ('\x7d' :: rest)
  have last : unescapeFrom (.code c.toNat) ('\x7d' :: rest) =
      (unescapeFrom .between rest).map (Prod.map (c :: ·) id) := by
    rw [unescapeFrom, if_pos rfl, Char.ofNat_toNat]
  have split : codePoint c ++ rest =
      '\\' :: 'u' :: '\x7b' :: (Nat.toDigits 16 c.toNat ++ '\x7d' :: rest) := by
    simp [codePoint]
  rw [split, ← last, ← behind]
  rfl

/-! ## Characters -/

theorem lookup_of_mem_marks {m c : Char} (known : (m, c) ∈ marks) :
    m ≠ 'u' ∧ marks.lookup m = some c := by
  have all : ∀ pair ∈ marks, pair.1 ≠ 'u' ∧ marks.lookup pair.1 = some pair.2 := by decide
  exact all _ known

/-- A character is read back however it is shown. -/
theorem unescapeFrom_spelled {c : Char} {cs : List Char} (spells : Spells c cs)
    (rest : List Char) : unescapeFrom .between (cs ++ rest) =
      (unescapeFrom .between rest).map (Prod.map (c :: ·) id) := by
  cases spells with
  | @mark m _ known =>
    obtain ⟨other, found⟩ := lookup_of_mem_marks known
    show unescapeFrom .escape (m :: rest) = _
    rw [unescapeFrom, if_neg other, found]
  | code => exact unescapeFrom_codePoint c rest
  | plain quote slash =>
    rw [List.singleton_append, unescapeFrom, if_neg quote, if_neg slash]

theorem quotesEscaped_append {cs : List Char} (plain : ∀ c ∈ cs, c ≠ '"' ∧ c ≠ '\\')
    (rest : List Char) : quotesEscaped (cs ++ rest) = quotesEscaped rest := by
  induction cs with
  | nil => rfl
  | cons c cs ih =>
    obtain ⟨quote, slash⟩ := plain c List.mem_cons_self
    rw [List.cons_append, quotesEscaped]
    · rw [ih fun d member => plain d (List.mem_cons_of_mem c member), bne_iff_ne.2 quote,
        Bool.true_and]
    · exact fun _ _ same _ => slash same

theorem quotesEscaped_spelled {c : Char} {cs : List Char} (spells : Spells c cs)
    (rest : List Char) : quotesEscaped (cs ++ rest) = quotesEscaped rest := by
  cases spells with
  | mark known => rfl
  | code =>
    -- The backslash takes the letter with it.
    show quotesEscaped (('\x7b' :: (Nat.toDigits 16 c.toNat ++ ['\x7d'])) ++ rest) = _
    refine quotesEscaped_append (fun d member => ?_) rest
    rcases List.mem_cons.1 member with rfl | inside
    · decide
    · rcases List.mem_append.1 inside with digit | last
      · obtain ⟨k, small, rfl⟩ := exists_digit_of_mem_toDigits digit
        exact (digitChar_plain small).2
      · rw [List.mem_singleton.1 last]
        decide
  | plain quote slash =>
    refine quotesEscaped_append (fun d member => ?_) rest
    rw [List.mem_singleton.1 member]
    exact ⟨quote, slash⟩

/-- The characters of a message are shown in these ways. -/
theorem spells_inspectChar (c : Char) : Spells c (inspectChar c) := by
  have shown {m d : Char} (known : (m, d) ∈ marks) (same : c = d) : Spells c ['\\', m] :=
    same ▸ .mark known
  unfold inspectChar
  split
  · next same => exact shown (by decide) same
  split
  · next same => exact shown (by decide) same
  split
  · next same => exact shown (by decide) same
  split
  · next same => exact shown (by decide) same
  split
  · next same => exact shown (by decide) same
  next quote =>
  split
  · next same => exact shown (by decide) same
  next slash =>
  split
  · exact .code c
  · exact .plain quote slash

example : inspectChar '\x7f' = "\\u\x7b7f\x7d".toList := by decide +kernel

/-! ## Texts -/

theorem toList_shown (spell : Char → List Char) (text : String) :
    (shown spell text).toList = '"' :: (text.toList.flatMap spell ++ ['"']) := by
  simp [shown]

theorem toList_lineOf (spell : Char → List Char) (k : Kind) (text : String) :
    (lineOf spell k text).toList = "Traversal \x7b kind: ".toList ++ ((shown spell k.name).toList ++
      (", text: ".toList ++ ((shown spell text).toList ++ " \x7d".toList))) := by
  have parts (a b c d e : String) : (a ++ b ++ c ++ d ++ e).toList =
      a.toList ++ (b.toList ++ (c.toList ++ (d.toList ++ e.toList))) := by
    simp only [String.toList_append, List.append_assoc]
  exact parts _ _ _ _ _

theorem kindOf?_name (k : Kind) : kindOf? k.name = some k := by
  cases k <;> decide

section Texts

variable {spell : Char → List Char} (spells : ∀ c, Spells c (spell c))

include spells

/-- A text is read back from between its quotes, whatever follows them. -/
theorem unescape_spelled (cs rest : List Char) :
    unescape (cs.flatMap spell ++ '"' :: rest) = some (cs, rest) := by
  induction cs with
  | nil => rfl
  | cons c cs ih =>
    unfold unescape at ih ⊢
    rw [List.flatMap_cons, List.append_assoc, unescapeFrom_spelled (spells c), ih]
    rfl

theorem quotesEscaped_flatMap (cs : List Char) : quotesEscaped (cs.flatMap spell) = true := by
  induction cs with
  | nil => rfl
  | cons c cs ih => rw [List.flatMap_cons, quotesEscaped_spelled (spells c), ih]

/-- Texts that are shown alike are the same. -/
theorem shown_inj {s t : String} : shown spell s = shown spell t ↔ s = t := by
  refine ⟨fun same => ?_, congrArg _⟩
  have chars := congrArg String.toList same
  rw [toList_shown, toList_shown] at chars
  have read := unescape_spelled spells s.toList []
  rw [(List.cons.inj chars).2, unescape_spelled spells] at read
  exact (String.toList_inj.1 (Prod.mk.inj (Option.some.inj read)).1).symm

theorem readShown_append (before text : String) (rest : List Char) :
    readShown before (before.toList ++ ((shown spell text).toList ++ rest)) =
      some (text, rest) := by
  have front (rest : List Char) : (before.toList ++ rest).dropPrefix? before.toList = some rest :=
    List.dropPrefix?_append_of_beq rest (by simp)
  have inside := unescape_spelled spells text.toList rest
  rw [readShown, front, toList_shown]
  simp [inside]

/-- A kind and a text are read back from the line of a handle. -/
theorem readLine_lineOf (k : Kind) (text : String) :
    readLine (lineOf spell k text) = some (k, text) := by
  rw [readLine, toList_lineOf, readShown_append spells]
  simp only [Option.bind_eq_bind, Option.bind_some, kindOf?_name, readShown_append spells, if_true]

end Texts

/-! ## Messages -/

open Session

/-- The line of a handle says its kind and its text, and the message on a refused source says the
source: inside the quotes no double quote is bare, and what stands there is read back whatever
follows. All this holds whichever characters are shown as they are. -/
theorem inspected_determines :
    (∀ spell : Char → List Char, (∀ c, Spells c (spell c)) → ∀ (k : Kind) (text : String),
      quotesEscaped (text.toList.flatMap spell) = true ∧
      (∀ rest, unescape (text.toList.flatMap spell ++ '"' :: rest) = some (text.toList, rest)) ∧
      readLine (lineOf spell k text) = some (k, text) ∧
      ∀ other, shown spell text = shown spell other ↔ text = other) ∧
    (∀ (commands : List Command) (h : String) (handle : Handle) (statement : Statement),
      (reached commands).find? h = some (handle, statement) →
      ((reached commands).exec (.inspect h)).1 =
        .inspected (inspection handle.kind statement.text) ∧
      readLine (inspection handle.kind statement.text) = some (handle.kind, statement.text)) ∧
    ∀ (c c' : Config) (e e' : Error), c.validate = .error e → c'.validate = .error e' →
      (e.message = e'.message ↔ c.source = c'.source) := by
  refine ⟨fun spell spells k text => ?_, fun commands h handle statement found => ?_,
    fun c c' e e' refused refused' => ?_⟩
  · exact ⟨quotesEscaped_flatMap spells _, unescape_spelled spells _,
      readLine_lineOf spells k text, fun other => shown_inj spells⟩
  · refine ⟨?_, readLine_lineOf spells_inspectChar _ _⟩
    rw [exec, observe, found]
  · obtain ⟨-, rfl⟩ := Config.validate_eq_error_iff.1 refused
    obtain ⟨-, rfl⟩ := Config.validate_eq_error_iff.1 refused'
    have cause : "遍历源必须是标识符: " ++ inspect c.source = "遍历源必须是标识符: " ++ inspect c'.source ↔
        inspect c.source = inspect c'.source := String.append_right_inj _
    exact (String.append_right_inj _).trans (cause.trans (shown_inj spells_inspectChar))

/-- A label with a quote, which the literal marks by a backslash, and two refused sources, one of
which is the escape of the other. -/
theorem inspected_determines_label :
    readLine (inspection .vertex "g.V().hasLabel('it\\'s')") =
      some (.vertex, "g.V().hasLabel('it\\'s')") ∧
    quotesEscaped (inspectBody "a\"b\\".toList) = true ∧
    (Error.invalidArgument ("遍历源必须是标识符: " ++ inspect "\n")).message ≠
      (Error.invalidArgument ("遍历源必须是标识符: " ++ inspect "\\n")).message := by
  obtain ⟨any, handles, sources⟩ := inspected_determines
  refine ⟨?_, (any inspectChar spells_inspectChar .root "a\"b\\").1, ?_⟩
  · exact (handles [.withConfig "q" { quoting := .escaped }, .step "q" "q" (.start .vertex none),
      .step "q" "q" (.hasLabel "it's")] "q" ⟨0, .vertex⟩
      ⟨{ quoting := .escaped }, [.start .vertex none, .hasLabel "it's"]⟩ rfl).2
  · have messages := sources { source := "\n" } { source := "\\n" } _ _ rfl rfl
    exact fun same => absurd (messages.1 same) (by decide)

end Gremlin.Text
