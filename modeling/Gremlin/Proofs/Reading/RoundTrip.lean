import Gremlin.Proofs.Reading.Decode

/-!
# Readable statements are read back

The texts of names, literals and bare words end themselves, and so do the steps that are
made of them. So the text of a statement can be read in one way only, however deep the
goals of its steps are nested and whatever its literals hold.

Results:
1. `fragment_eq`: every step is written as a name and its arguments in parentheses.
2. `reads_arguments`: the arguments of a step are read from their text.
3. `sourceLength_eq`: the source is told apart from an edge step without a dot.
4. `decode_text`: a readable statement is read from its text.
-/

namespace Gremlin

open Reader

/-! ## Readable statements -/

/-- Whether a step writes nothing without quotes but numbers, words and calls. -/
def Step.Readable : AppendedStep → Prop
  | .has _ (.predicate (.raw _)) => False
  | .has _ (.predicate (.call name _)) => IsWord name.toList
  | .modulate (.token t) => IsWord t.text.toList
  | _ => True

/-- A statement with escaped literals on a source that is an identifier, whose steps are
readable down to the goals of goals. -/
inductive Statement.Readable : Statement → Prop
  | intro {s : Statement} (escaped : s.config.quoting = .escaped)
      (identifier : Config.isIdentifier s.config.source.toList = true)
      (steps : ∀ step ∈ s.steps, Step.Readable step)
      (goals : ∀ e goal, .endpoint e goal ∈ s.steps → Statement.Readable goal) :
      Statement.Readable s

/-! ## Single arguments -/

theorem reads_string (s : String) {ends : List Char} :
    Reads ends stringReader (Quoting.escaped.quote s).toList s :=
  .quoted rfl

theorem isWord_integerText (n : Int64) : IsWord (integerText n).toList := by
  obtain ⟨c, rest, split, _⟩ := exists_digit_of_integerText n
  exact ⟨split ▸ List.cons_ne_nil c rest, fun c member => isBare_of_mem_integerText member⟩

theorem reads_id (id : ElementId) :
    Reads argumentEnds idReader (id.text .escaped).toList id := by
  cases id with
  | string s => exact .quoted rfl
  | integer n =>
    have read : integer? (integerText n).toList = some n := integer?_eq_some_iff.2 rfl
    exact .bare (isWord_integerText n) (congrArg (Option.map ElementId.integer) read)

theorem opens_id (id : ElementId) : Opens (id.text .escaped).toList := by
  cases id with
  | string s => exact opens_quote s
  | integer n => exact (isWord_integerText n).opens

theorem isWord_text {v : Value} (unquoted : v.asString? = none) :
    IsWord (v.text .escaped).toList := by
  refine ⟨?_, fun c member => v.isBare_of_mem_text unquoted _ member⟩
  cases v with
  | string s => cases unquoted
  | integer n => exact (isWord_integerText n).1
  | double d => exact d.text_ne_nil
  | boolean b => cases b <;> exact List.cons_ne_nil _ _

theorem reads_value (v : Value) :
    Reads argumentEnds valueReader (v.text .escaped).toList v.canonical := by
  cases h : v.asString? with
  | none => exact .bare (isWord_text h) (congrArg some (Value.ofBare_text h _))
  | some s =>
    cases v with
    | string text => exact .quoted rfl
    | _ => cases h

theorem opens_value (v : Value) : Opens (v.text .escaped).toList := by
  cases h : v.asString? with
  | none => exact (isWord_text h).opens
  | some s =>
    cases v with
    | string text => exact opens_quote text
    | _ => cases h

theorem reads_key {key : ByKey} (readable : Step.Readable (.modulate key)) :
    Reads argumentEnds keyReader (key.text .escaped).toList key := by
  cases key with
  | field name => exact .quoted rfl
  | token t =>
    have same : String.ofList t.text.toList = t.text := String.ofList_toList
    exact .bare readable (congrArg (fun text => some (ByKey.token ⟨text⟩)) same)

theorem reads_count (n : Int64) : Reads argumentEnds countReader (integerText n).toList n :=
  .bare (isWord_integerText n) (integer?_eq_some_iff.2 rfl)

/-! ## Lists and calls -/

theorem reads_items (items : List String) :
    Reads closing (listed stringReader) (Quoting.escaped.quoteAll items).toList items := by
  have read : Reads closing (listed stringReader)
      ([','].intercalate (items.map fun s => (Quoting.escaped.quote s).toList)) (items.map id) :=
    .listed (fun s _ => reads_string s) fun s _ => opens_quote s
  rw [List.map_id] at read
  rw [Quoting.quoteAll, String.toList_intercalate, List.map_map]
  exact read

/-- The text of the arguments of a call. -/
def argsText (args : List Value) : List Char :=
  (",".intercalate (args.map (Value.text .escaped))).toList

theorem reads_args (args : List Value) :
    Reads closing (listed valueReader) (argsText args) (args.map Value.canonical) := by
  rw [argsText, String.toList_intercalate, List.map_map]
  exact Reads.listed (fun v _ => reads_value v) fun v _ => opens_value v

/-- A call ends with its own parenthesis. -/
theorem callReader_append {word : String} (isWord : IsWord word.toList) (args : List Value)
    (rest : List Char) :
    callReader (word.toList ++ '(' :: (argsText args ++ ')' :: rest)) =
      some (.call word (args.map Value.canonical), rest) := by
  obtain ⟨taken, dropped⟩ := run_append (p := isBare) ('(' :: (argsText args ++ ')' :: rest))
    isWord.2 (by simp [isBare])
  rw [callReader, taken, dropped, map, (reads_args args).enclosed, String.ofList_toList]
  rfl

theorem reads_compared {name : String} {value : HasValue}
    (readable : Step.Readable (.has name value)) :
    Reads closing comparedReader (value.text .escaped).toList value.canonical := by
  intro rest stop
  cases value with
  | literal s =>
    have read := (reads_string s).map HasValue.literal rest stop
    rw [Quoting.toList_quote_escaped] at read
    rw [HasValue.text, Quoting.toList_quote_escaped]
    exact read
  | predicate p =>
    cases p with
    | raw text => exact absurd readable id
    | call word args =>
      have isWord : IsWord word.toList := readable
      obtain ⟨c, tail, split⟩ := List.exists_cons_of_ne_nil isWord.1
      have first : c ≠ '\'' := ne_quote_of_isBare (isWord.2 c (split ▸ List.mem_cons_self))
      have text : (HasValue.text .escaped (.predicate (.call word args))).toList ++ rest =
          word.toList ++ '(' :: (argsText args ++ ')' :: rest) := by
        simp [HasValue.text, Comparer.text, argsText]
      have call := callReader_append isWord args rest
      -- The reader decides by the first character, so the word is taken apart.
      rw [text]
      rw [split, List.cons_append] at call ⊢
      rw [comparedReader, map, call]
      · rfl
      · exact fun _ split => first (List.cons.inj split).1

/-! ## Arguments of steps -/

namespace Statement

/-- The text of all arguments of a step. -/
def argumentText (c : Config) : AppendedStep → String
  | .start _ id => optionalText (ElementId.text c.quoting) id
  | .add _ label | .move _ label => optionalText c.quoting.quote label
  | .has name value => c.quoting.quote name ++ "," ++ value.text c.quoting
  | .hasLabel label => c.quoting.quote label
  | .hasId id => id.text c.quoting
  | .property name value => c.quoting.quote name ++ "," ++ value.text c.quoting
  | .project _ items => c.quoting.quoteAll items
  | .mark name => c.quoting.quote name
  | .modulate key => key.text c.quoting
  | .limit count => integerText count
  | .group | .general _ => ""
  | .endpoint _ goal => goal.text

/-- What stands before the name of a step. -/
def opening (c : Config) (step : AppendedStep) : String :=
  if step.head = .start .edge then edgeSeparator c else "."

theorem opening_cases (c : Config) (step : AppendedStep) :
    (opening c step).toList = ['.'] ∨
      ((opening c step).toList = [] ∧ step.head = .start .edge) := by
  unfold opening edgeSeparator
  split
  · next edge =>
    split
    · exact .inl rfl
    · exact .inr ⟨rfl, edge⟩
  · exact .inl rfl

/-- Every step is written as a name and its arguments in parentheses. -/
theorem fragment_eq (c : Config) (step : AppendedStep) :
    (fragment c step).toList = (opening c step).toList ++
      (step.head.name.toList ++ '(' :: ((argumentText c step).toList ++ [')'])) := by
  cases step with
  | start e id => cases e <;> simp [fragment, callText, opening, Step.head, Head.name,
      Element.startName, argumentText]
  | _ => simp [fragment, callText, opening, Step.head, Head.name, argumentText]

theorem toList_fragments (c : Config) (steps : List AppendedStep) :
    (fragments c steps).toList = (steps.map fun step => (fragment c step).toList).flatten := by
  induction steps with
  | nil => simp [fragments]
  | cons step rest ih => simp [fragments, ih]

theorem toList_pair (a b : String) : (a ++ "," ++ b).toList = a.toList ++ ',' :: b.toList := by
  simp

variable {c : Config} {goal : Reader Reading}

theorem reads_optional {α : Type} {p : Reader α} {write : α → String} {made : Option α}
    (opens : ∀ a, Opens (write a).toList) (reads : ∀ a, Reads argumentEnds p (write a).toList a) :
    Reads closing (optional p) (optionalText write made).toList made := by
  cases made with
  | none => exact .optional_none
  | some a => exact .optional_some (opens a) (reads a).last

/-- The arguments of a step are read from their text. -/
theorem reads_arguments (escaped : c.quoting = .escaped) {step : AppendedStep}
    (readable : Step.Readable step)
    (goals : ∀ e s, step = .endpoint e s → Reads closing goal s.text.toList s.reading) :
    Reads closing (step.head.arguments goal) (argumentText c step).toList (stepReading step) := by
  cases step with
  | start e id =>
    rw [argumentText, escaped]
    exact (reads_optional opens_id reads_id).map _
  | add e label | move m label =>
    rw [argumentText, escaped]
    exact (reads_optional opens_quote fun s => reads_string s).map _
  | has name value =>
    rw [argumentText, escaped, toList_pair]
    exact ((reads_string name).pair (reads_compared readable)).map _
  | hasLabel label =>
    rw [argumentText, escaped]
    exact (reads_string label).map _
  | hasId id =>
    rw [argumentText, escaped]
    exact (reads_id id).last.map _
  | property name value =>
    rw [argumentText, escaped, toList_pair]
    exact ((reads_string name).pair (reads_value value).last).map _
  | project p items =>
    rw [argumentText, escaped]
    exact (reads_items items).map _
  | mark name =>
    rw [argumentText, escaped]
    exact (reads_string name).map _
  | modulate key =>
    rw [argumentText, escaped]
    exact (reads_key readable).last.map _
  | limit count => exact (reads_count count).last.map _
  | group | general g => exact fun rest _ => rfl
  | endpoint e s => exact (goals e s rfl).map _

/-- A step ends itself. -/
theorem stepReader_fragment (escaped : c.quoting = .escaped) {step : AppendedStep}
    (readable : Step.Readable step)
    (goals : ∀ e s, step = .endpoint e s → Reads closing goal s.text.toList s.reading)
    (behind : List Char) :
    stepReader goal ((fragment c step).toList ++ behind) = some (stepReading step, behind) := by
  have arguments := (reads_arguments escaped readable goals).enclosed behind
  have word : headReader ('.' :: (step.head.name.toList ++
      '(' :: ((argumentText c step).toList ++ ')' :: behind))) =
      some (step.head, '(' :: ((argumentText c step).toList ++ ')' :: behind)) := by
    obtain ⟨taken, dropped⟩ := run_append (p := isBare)
      ('(' :: ((argumentText c step).toList ++ ')' :: behind))
      (fun _ member => Head.isBare_of_mem_name member) (by simp [isBare])
    rw [headReader, taken, dropped, Head.ofName?_name]
    rfl
  rw [fragment_eq]
  simp only [List.append_assoc, List.cons_append, List.nil_append]
  rcases opening_cases c step with point | ⟨nothing, edge⟩
  · rw [point, List.singleton_append, stepReader, word]
    exact arguments
  · rw [nothing, List.nil_append]
    rw [edge] at arguments ⊢
    exact arguments

/-! ## Statements -/

/-- Before the end of a statement there is no further step. -/
theorem stepReader_of_ends {rest : List Char} (stop : Ends closing rest) :
    stepReader goal rest = none := by
  cases rest with
  | nil => rfl
  | cons c rest =>
    obtain rfl := List.mem_singleton.1 (stop c rfl)
    rfl

/-- What follows the source of a statement: a dot, the end, or an edge step without a
dot. -/
theorem fragments_cases (c : Config) (steps : List AppendedStep) {rest : List Char}
    (stop : Ends closing rest) :
    (∀ d ∈ ((fragments c steps).toList ++ rest).head?, d = '.' ∨ d = ')') ∨
      ∃ tail, (fragments c steps).toList ++ rest = 'E' :: '(' :: tail := by
  cases steps with
  | nil =>
    refine .inl fun d member => .inr (List.mem_singleton.1 (stop d ?_))
    simpa [fragments] using member
  | cons step others =>
    rw [toList_fragments, List.map_cons, List.flatten_cons, fragment_eq]
    rcases opening_cases c step with point | ⟨nothing, edge⟩
    · rw [point]
      exact .inl fun d member => .inl (Option.some.inj member).symm
    · rw [nothing, edge]
      exact .inr ⟨_, rfl⟩

theorem continues_of_isIdentifier {cs : List Char} (identifier : Config.isIdentifier cs = true) :
    ∀ c ∈ cs, Config.continuesIdentifier c = true := by
  cases cs with
  | nil => cases identifier
  | cons first rest =>
    simp only [Config.isIdentifier, Bool.and_eq_true, List.all_eq_true] at identifier
    intro c member
    rcases List.mem_cons.1 member with rfl | behind
    · have starts := identifier.1
      unfold Config.startsIdentifier at starts
      unfold Config.continuesIdentifier Char.isAlphanum
      rw [Bool.or_assoc, Bool.or_comm c.isDigit, ← Bool.or_assoc, starts]
      rfl
    · exact identifier.2 c behind

/-- The source is told apart from an edge step without a dot. -/
theorem sourceLength_eq {source tail : List Char}
    (identifier : Config.isIdentifier source = true)
    (follows : (∀ d ∈ tail.head?, d = '.' ∨ d = ')') ∨ ∃ behind, tail = 'E' :: '(' :: behind) :
    sourceLength (source ++ tail) = source.length := by
  have all := continues_of_isIdentifier identifier
  unfold sourceLength
  rcases follows with outside | ⟨behind, rfl⟩
  · obtain ⟨taken, dropped⟩ := run_append (p := Config.continuesIdentifier) tail all
      fun d member => by rcases outside d member with rfl | rfl <;> decide
    rw [taken, dropped]
    split
    · rcases outside '(' rfl with point | close
      · cases point
      · cases close
    · rfl
  · have word : ∀ c ∈ source ++ ['E'], Config.continuesIdentifier c = true := by
      intro c member
      rcases List.mem_append.1 member with inside | last
      · exact all c inside
      · rw [List.mem_singleton.1 last]
        decide
    obtain ⟨taken, dropped⟩ := run_append ('(' :: behind) word
      fun d member => by rw [← Option.some.inj member]; decide
    rw [List.append_assoc, List.singleton_append] at taken dropped
    rw [taken, dropped]
    simp

theorem length_le_length_fragments (c : Config) (steps : List AppendedStep) :
    steps.length ≤ (fragments c steps).toList.length := by
  induction steps with
  | nil => exact Nat.zero_le _
  | cons step rest ih =>
    rw [fragments, String.toList_append, List.length_append, fragment_eq]
    simp only [List.length_append, List.length_cons]
    omega

/-- The goal of a step is a part of the text. -/
theorem length_goal_lt {s goal : Statement} {e : Endpoint} (member : .endpoint e goal ∈ s.steps) :
    goal.text.toList.length < s.text.toList.length := by
  obtain ⟨before, after, split⟩ := List.append_of_mem member
  rw [text_eq s, split, fragments_append, fragments, String.toList_append, String.toList_append,
    String.toList_append, fragment_eq]
  simp only [argumentText, List.length_append, List.length_cons]
  omega

/-- A readable statement is read from its text, and from no more than it. -/
theorem reads_text {s : Statement} (readable : s.Readable) {n : Nat}
    (enough : s.text.toList.length < n) :
    Reads closing (statementReader n) s.text.toList s.reading := by
  induction readable generalizing n with
  | @intro s escaped identifier steps goals ih =>
    obtain ⟨n, rfl⟩ : ∃ k, n = k + 1 := ⟨n - 1, by omega⟩
    have whole (step : AppendedStep) (member : step ∈ s.steps) (behind : List Char) :
        stepReader (statementReader n) ((fragment s.config step).toList ++ behind) =
          some (stepReading step, behind) := by
      refine stepReader_fragment escaped (steps step member) (fun e goal same => ?_) behind
      subst same
      have shorter := length_goal_lt member
      exact ih e goal member (by omega)
    intro rest stop
    have length := length_le_length_fragments s.config s.steps
    have tail : many (stepReader (statementReader n))
        (s.config.source.toList ++ ((fragments s.config s.steps).toList ++ rest)).length
        ((s.steps.map fun step => (fragment s.config step).toList).flatten ++ rest) =
        some (s.steps.map stepReading, rest) :=
      Reads.many whole (stepReader_of_ends stop) (by simp only [List.length_append]; omega)
    have front := sourceLength_eq identifier (fragments_cases s.config s.steps stop)
    rw [← toList_fragments] at tail
    rw [text_eq, String.toList_append, List.append_assoc, statementReader,
      front, List.take_left, List.drop_left, map, tail, reading_eq]
    simp

/-- A readable statement is read from its text. -/
theorem decode_text {s : Statement} (readable : s.Readable) : decode s.text = some s.reading := by
  have read := reads_text readable (Nat.lt_succ_self _) [] (by simp [Ends])
  rw [List.append_nil] at read
  rw [decode, read]

end Statement

end Gremlin
