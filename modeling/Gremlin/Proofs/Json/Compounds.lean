import Gremlin.Json.Sequence
import Gremlin.Proofs.Json.Skipped

/-!
# Lists, objects and tagged values

The items of a list and the members of an object are separated by commas. An object is
read into a state by which each member is checked against those before it; what an object
means is told by its members in order.

Results:
1. `readElements_eq_ok_iff`, `readNext_eq_ok_iff`: a list and one place of a list are read as the
   grammar says if the items are.
2. `exists_of_readMembers`, `readMembers_of_separated`: an object is read if its members
   can be put into the state one after the other.
3. `readTagged_eq_ok_iff`: a tagged value is a name, or an object with the name as its only
   key.
4. `Tags.readTagged_iff`: tagged values without bare names, from the readers of their
   variants.
-/

namespace Gremlin.Json

/-! ## Separated items -/

/-- Items with commas between them, up to the character that closes. The truth value tells
whether the first item is yet to come. -/
inductive Separated {α : Type} (closing : Char) (item : List Char → α → List Char → Prop) :
    Bool → List Char → List α → List Char → Prop
  | close {first : Bool} {cs rest : List Char} (closes : Symbol closing cs rest) :
      Separated closing item first cs [] rest
  | first {a : α} {as : List α} {cs behind rest : List Char} (here : item cs a behind)
      (others : Separated closing item false behind as rest) :
      Separated closing item true cs (a :: as) rest
  | next {a : α} {as : List α} {cs inner behind rest : List Char} (comma : Symbol ',' cs inner)
      (here : item inner a behind) (others : Separated closing item false behind as rest) :
      Separated closing item false cs (a :: as) rest

/-- The next item: the first one stands where it is looked for, the others behind a comma. -/
inductive NextItem (item : List Char → List Char → Prop) : Bool → List Char → List Char → Prop
  | first {cs rest : List Char} (here : item cs rest) : NextItem item true cs rest
  | next {cs inner rest : List Char} (comma : Symbol ',' cs inner) (here : item inner rest) :
      NextItem item false cs rest

section Separated

variable {α : Type} {closing : Char} {item : List Char → α → List Char → Prop} {first : Bool}
  {cs rest : List Char}

theorem separated_nil_iff : Separated closing item first cs [] rest ↔ Symbol closing cs rest := by
  constructor
  · rintro ⟨closes⟩
    exact closes
  · exact .close

theorem separated_cons_iff {a : α} {as : List α} :
    Separated closing item first cs (a :: as) rest ↔
      ∃ behind, NextItem (item · a ·) first cs behind ∧
        Separated closing item false behind as rest := by
  constructor
  · intro separated
    cases separated with
    | first here others => exact ⟨_, .first here, others⟩
    | next comma here others => exact ⟨_, .next comma here, others⟩
  · rintro ⟨behind, next, others⟩
    cases next with
    | first here => exact .first here others
    | next comma here => exact .next comma here others

/-- What follows an item does not go on with a number. -/
theorem Separated.ended {as : List α} (others : Separated closing item false cs as rest)
    (stop : closing.isDigit = false ∧ closing ≠ '.' ∧ closing ≠ 'e' ∧ closing ≠ 'E') :
    Ended cs := by
  cases others with
  | close closes => exact ended_of_symbol closes stop
  | next comma => exact ended_of_symbol comma (by decide)

end Separated

/-! ## Lists -/

theorem nextElement_false_iff {first : Bool} {cs rest : List Char} :
    nextElement first cs = .ok (false, rest) ↔ Symbol ']' cs rest := by
  rw [symbol_iff (by decide)]
  unfold nextElement
  split
  · next start => simp [start]
  · next start => simp [start]
  · next c tail other start =>
    have noClosing : c ≠ ']' := other
    rw [start]
    simp only [List.cons.injEq, noClosing, false_and, iff_false]
    intro taken
    split at taken
    · cases taken
    · split at taken
      · split at taken <;> cases taken
      · cases taken

theorem nextElement_first {cs : List Char} (starts : Starts cs) :
    nextElement true cs = .ok (true, skipBlanks cs) := by
  obtain ⟨c, tail, start, noClosing⟩ := starts
  rw [nextElement, start]
  simp

theorem nextElement_next {cs inner : List Char} (comma : Symbol ',' cs inner)
    (starts : Starts inner) : nextElement false cs = .ok (true, skipBlanks inner) := by
  obtain ⟨c, tail, start, noClosing⟩ := starts
  simp [nextElement, (symbol_iff (by decide)).1 comma, start, noClosing]

theorem of_nextElement_first {cs inner : List Char}
    (taken : nextElement true cs = .ok (true, inner)) : inner = skipBlanks cs := by
  unfold nextElement at taken
  split at taken
  · cases taken
  · cases taken
  · next start =>
    cases taken
    exact start.symm

theorem of_nextElement_next {cs inner : List Char}
    (taken : nextElement false cs = .ok (true, inner)) :
    ∃ behind, Symbol ',' cs behind ∧ inner = skipBlanks behind := by
  unfold nextElement at taken
  split at taken
  · cases taken
  · cases taken
  · next c tail _ start =>
    rw [if_neg Bool.false_ne_true] at taken
    split at taken
    · next comma =>
      subst comma
      split at taken
      · cases taken
      · cases taken
      · cases taken
        exact ⟨tail, symbol_of_skipBlanks start, rfl⟩
    · cases taken

theorem closeList_eq_ok_iff {cs rest : List Char} :
    closeList cs = .ok rest ↔ Symbol ']' cs rest := by
  rw [symbol_iff (by decide)]
  unfold closeList
  split
  · next start => simp [start]
  · next start => simp [start]
  · next start =>
    rw [start]
    split <;> simp
  · next other _ start => simp_all

section Elements

variable {α : Type} {read : Reader α} {shrinks : Shrinks read}

theorem readElements_close {first : Bool} {cs rest : List Char}
    (closes : nextElement first cs = .ok (false, rest)) :
    readElements read @shrinks first cs = .ok ([], rest) := by
  rw [readElements]
  split <;> simp_all

theorem readElements_next {first : Bool} {cs inner behind : List Char} {a : α}
    (next : nextElement first cs = .ok (true, inner)) (taken : read inner = .ok (a, behind)) :
    readElements read @shrinks first cs =
      (readElements read @shrinks false behind).map fun (as, rest) => (a :: as, rest) := by
  rw [readElements]
  split
  · simp_all
  · simp_all
  · split
    · simp_all
    · cases h : readElements read @shrinks false behind <;> simp_all [Except.map]

theorem readElements_failed {first : Bool} {cs inner : List Char} {f : Fault}
    (next : nextElement first cs = .ok (true, inner)) (taken : read inner = .error f) :
    readElements read @shrinks first cs = .error f := by
  rw [readElements]
  split
  · simp_all
  · simp_all
  · split <;> simp_all

/-- A reader takes exactly the items of a grammar. Blanks in front of an item make no
difference, and no item starts with the bracket that closes a list. -/
structure Items {α : Type} (read : Reader α) (item : List Char → α → List Char → Prop) : Prop where
  /-- What is read is an item, and every item is read. -/
  reads : ∀ {cs a rest}, read cs = .ok (a, rest) ↔ item cs a rest
  /-- An item may have blanks in front of it. -/
  blanks : ∀ {cs a rest}, item (skipBlanks cs) a rest ↔ item cs a rest
  /-- An item is not taken for the end of a list. -/
  starts : ∀ {cs a rest}, item cs a rest → Starts cs

variable {item : List Char → α → List Char → Prop}

/-- The next item is what is read where the reader of lists goes to. -/
theorem Items.nextItem_iff (items : Items read item) {first : Bool} {cs behind : List Char}
    {a : α} :
    NextItem (item · a ·) first cs behind ↔
      ∃ inner, nextElement first cs = .ok (true, inner) ∧ read inner = .ok (a, behind) := by
  constructor
  · intro next
    cases next with
    | first here =>
      exact ⟨_, nextElement_first (items.starts here), items.reads.2 (items.blanks.2 here)⟩
    | next comma here =>
      exact ⟨_, nextElement_next comma (items.starts here), items.reads.2 (items.blanks.2 here)⟩
  · rintro ⟨inner, next, read⟩
    have here := items.reads.1 read
    cases first with
    | true =>
      obtain rfl := of_nextElement_first next
      exact .first (items.blanks.1 here)
    | false =>
      obtain ⟨after, comma, rfl⟩ := of_nextElement_next next
      exact .next comma (items.blanks.1 here)

/-- A list is read as the grammar says if its elements are. -/
theorem readElements_eq_ok_iff (items : Items read item) {first : Bool} {cs rest : List Char}
    {as : List α} :
    readElements read @shrinks first cs = .ok (as, rest) ↔ Separated ']' item first cs as rest := by
  constructor
  · intro taken
    fun_induction readElements read @shrinks first cs generalizing as rest with
    | case1 => cases taken
    | case2 first cs behind closing =>
      cases taken
      exact .close (nextElement_false_iff.1 closing)
    | case3 => cases taken
    | case4 => cases taken
    | case5 first cs inner next a behind read as' final others ih =>
      cases taken
      exact separated_cons_iff.2 ⟨behind, items.nextItem_iff.2 ⟨inner, next, read⟩, ih others⟩
  · intro separated
    induction as generalizing first cs with
    | nil => exact readElements_close (nextElement_false_iff.2 (separated_nil_iff.1 separated))
    | cons a as ih =>
      obtain ⟨behind, here, others⟩ := separated_cons_iff.1 separated
      obtain ⟨inner, next, read⟩ := items.nextItem_iff.1 here
      rw [readElements_next next read, ih others]
      rfl

/-- One place of a list: the list closes in front of it, or an item stands there. -/
theorem readNext_eq_ok_iff {β : Type} (items : Items read item) {first : Bool} {absent : Reader β}
    {present : α → Reader β} {cs : List Char} {x : β × List Char} :
    readNext first read absent present cs = .ok x ↔
      (∃ behind, Symbol ']' cs behind ∧ absent behind = .ok x) ∨
        ∃ a behind, NextItem (item · a ·) first cs behind ∧ present a behind = .ok x := by
  constructor
  · intro taken
    unfold readNext at taken
    split at taken
    · cases taken
    · next behind closes => exact .inl ⟨behind, nextElement_false_iff.1 closes, taken⟩
    · next inner next =>
      split at taken
      · cases taken
      · next a behind read =>
        exact .inr ⟨a, behind, items.nextItem_iff.2 ⟨inner, next, read⟩, taken⟩
  · rintro (⟨behind, closes, taken⟩ | ⟨a, behind, here, taken⟩)
    · simp only [readNext, nextElement_false_iff.2 closes]
      exact taken
    · obtain ⟨inner, next, read⟩ := items.nextItem_iff.1 here
      simp only [readNext, next, read]
      exact taken

theorem items_text (wanted : Wanted) : Items (readText wanted) Text where
  reads := readText_eq_ok_iff
  blanks := text_skipBlanks_iff
  starts := by
    rintro cs text rest ⟨_, quote, _⟩
    exact starts_of_symbol quote (by decide) (by decide)

theorem items_boolean : Items readBoolean fun cs b rest => Word (booleanWord b) cs rest where
  reads := readBoolean_eq_ok_iff
  blanks := by
    intro cs b rest
    cases b <;> exact symbol_skipBlanks_iff (by decide)
  starts := by
    intro cs b rest word
    cases b
    · exact starts_of_symbol word (by decide) (by decide)
    · exact starts_of_symbol word (by decide) (by decide)

end Elements

/-! ## Keys -/

theorem readKeyText_eq_ok_iff {cs rest : List Char} {key : Option String} :
    readKeyText cs = .ok (key, rest) ↔
      ∃ text : String, key = some text ∧ StringBody cs text.toList rest := by
  constructor
  · intro taken
    obtain ⟨⟨text, behind⟩, read, same⟩ := map_eq_ok.1 taken
    cases same
    exact ⟨_, rfl, by rw [String.toList_ofList]; exact readString_eq_ok_iff.1 read⟩
  · rintro ⟨text, rfl, body⟩
    rw [readKeyText, readString_eq_ok_iff.2 body]
    exact congrArg (fun text => Except.ok (some text, rest)) String.ofList_toList

theorem ne_none_of_readKeyText {cs rest : List Char} : readKeyText cs ≠ .ok (none, rest) := by
  intro taken
  obtain ⟨text, same, _⟩ := readKeyText_eq_ok_iff.1 taken
  cases same

theorem body_of_readKeyText {cs rest : List Char} {name : String}
    (taken : readKeyText cs = .ok (some name, rest)) : StringBody cs name.toList rest := by
  obtain ⟨text, same, body⟩ := readKeyText_eq_ok_iff.1 taken
  cases same
  exact body

theorem closing_of_readKey {first : Bool} {cs rest : List Char}
    (taken : readKey first cs = .ok (none, rest)) : Symbol '\x7d' cs rest := by
  unfold readKey at taken
  split at taken
  · cases taken
  · next start =>
    cases taken
    exact symbol_of_skipBlanks start
  · split at taken
    · split at taken
      · exact absurd taken ne_none_of_readKeyText
      · cases taken
    · split at taken
      · split at taken
        · cases taken
        · exact absurd taken ne_none_of_readKeyText
        · cases taken
        · cases taken
      · cases taken

theorem text_of_readKey_true {cs rest : List Char} {name : String}
    (taken : readKey true cs = .ok (some name, rest)) : Text cs name rest := by
  unfold readKey at taken
  split at taken
  · cases taken
  · cases taken
  · next c tail other start =>
    rw [if_pos rfl] at taken
    split at taken
    · next quote =>
      subst quote
      exact ⟨tail, symbol_of_skipBlanks start, body_of_readKeyText taken⟩
    · cases taken

theorem text_of_readKey_false {cs rest : List Char} {name : String}
    (taken : readKey false cs = .ok (some name, rest)) :
    ∃ inner, Symbol ',' cs inner ∧ Text inner name rest := by
  unfold readKey at taken
  split at taken
  · cases taken
  · cases taken
  · next c tail other start =>
    rw [if_neg Bool.false_ne_true] at taken
    split at taken
    · next comma =>
      subst comma
      split at taken
      · cases taken
      · next start' =>
        exact ⟨tail, symbol_of_skipBlanks start,
          _, symbol_of_skipBlanks start', body_of_readKeyText taken⟩
      · cases taken
      · cases taken
    · cases taken

theorem readKey_closing {first : Bool} {cs rest : List Char} (closes : Symbol '\x7d' cs rest) :
    readKey first cs = .ok (none, rest) := by
  rw [readKey, (symbol_iff (by decide)).1 closes]
  rfl

theorem readKey_true {cs rest : List Char} {name : String} (text : Text cs name rest) :
    readKey true cs = .ok (some name, rest) := by
  obtain ⟨inner, quote, body⟩ := text
  have taken := readKeyText_eq_ok_iff.2 ⟨name, rfl, body⟩
  simp [readKey, (symbol_iff (by decide)).1 quote, taken]

theorem readKey_false {cs inner rest : List Char} {name : String} (comma : Symbol ',' cs inner)
    (text : Text inner name rest) : readKey false cs = .ok (some name, rest) := by
  obtain ⟨inside, quote, body⟩ := text
  have taken := readKeyText_eq_ok_iff.2 ⟨name, rfl, body⟩
  simp [readKey, (symbol_iff (by decide)).1 comma, (symbol_iff (by decide)).1 quote, taken]

/-! ## Objects -/

/-- A member of an object: its key, a colon, and its value. -/
def Member {ε : Type} (key : ε → String) (value : ε → List Char → List Char → Prop)
    (cs : List Char) (e : ε) (rest : List Char) : Prop :=
  ∃ inner, Key cs (key e) inner ∧ value e inner rest

/-- A reader of fields takes exactly the members of a grammar, as far as they can be put
into the state. -/
structure Fields {σ ε : Type} (field : String → σ → Reader σ) (key : ε → String)
    (value : ε → List Char → List Char → Prop) (put : σ → ε → Option σ) : Prop where
  /-- What is read is a member. -/
  sound : ∀ {name state next cs rest}, field name state cs = .ok (next, rest) →
    ∃ e inner, key e = name ∧ Symbol ':' cs inner ∧ value e inner rest ∧ put state e = some next
  /-- Every member is read. -/
  complete : ∀ {e state next cs inner rest}, Symbol ':' cs inner → value e inner rest →
    put state e = some next → Ended rest → field (key e) state cs = .ok (next, rest)

section Members

variable {σ ε : Type} {field : String → σ → Reader σ}
  {shrinks : ∀ name state, Shrinks (field name state)} {key : ε → String}
  {value : ε → List Char → List Char → Prop} {put : σ → ε → Option σ}

theorem exists_of_readMembers (fields : Fields field key value put) {first : Bool} {state last : σ}
    {cs rest : List Char} (taken : readMembers field shrinks first state cs = .ok (last, rest)) :
    ∃ es, Separated '\x7d' (Member key value) first cs es rest ∧
      es.foldlM put state = some last := by
  fun_induction readMembers field shrinks first state cs with
  | case1 => cases taken
  | case2 first state cs behind closing =>
    cases taken
    exact ⟨[], .close (closing_of_readKey closing), rfl⟩
  | case3 => cases taken
  | case4 first state cs name behind keyTaken state' behind' fieldTaken ih =>
    obtain ⟨es, others, folded⟩ := ih taken
    obtain ⟨e, inner, rfl, colon, isValue, isPut⟩ := fields.sound fieldTaken
    refine ⟨e :: es, ?_, by rw [List.foldlM_cons, isPut]; exact folded⟩
    cases first with
    | true =>
      have member : Member key value cs e behind' :=
        ⟨inner, ⟨behind, text_of_readKey_true keyTaken, colon⟩, isValue⟩
      exact .first member others
    | false =>
      obtain ⟨start, comma, text⟩ := text_of_readKey_false keyTaken
      have member : Member key value start e behind' := ⟨inner, ⟨behind, text, colon⟩, isValue⟩
      exact .next comma member others

theorem readMembers_close {first : Bool} {state : σ} {cs rest : List Char}
    (closes : Symbol '\x7d' cs rest) :
    readMembers field shrinks first state cs = .ok (state, rest) := by
  rw [readMembers]
  have closing : readKey first cs = .ok (none, rest) := readKey_closing closes
  split <;> simp_all

theorem readMembers_member {first : Bool} {name : String} {state next : σ}
    {cs behind rest : List Char} (keyTaken : readKey first cs = .ok (some name, behind))
    (fieldTaken : field name state behind = .ok (next, rest)) :
    readMembers field shrinks first state cs = readMembers field shrinks false next rest := by
  rw [readMembers]
  split
  · simp_all
  · simp_all
  · split <;> simp_all

theorem readMembers_failed {first : Bool} {name : String} {state : σ} {cs behind : List Char}
    {f : Fault} (keyTaken : readKey first cs = .ok (some name, behind))
    (fieldTaken : field name state behind = .error f) :
    readMembers field shrinks first state cs = .error f := by
  rw [readMembers]
  split
  · simp_all
  · simp_all
  · split <;> simp_all

theorem readMembers_of_separated (fields : Fields field key value put) {first : Bool} {es : List ε}
    {state last : σ} {cs rest : List Char}
    (members : Separated '\x7d' (Member key value) first cs es rest)
    (folded : es.foldlM put state = some last) :
    readMembers field shrinks first state cs = .ok (last, rest) := by
  induction members generalizing state with
  | close closes =>
    cases folded
    exact readMembers_close closes
  | first here others ih =>
    obtain ⟨inner, ⟨behind, text, colon⟩, isValue⟩ := here
    rw [List.foldlM_cons] at folded
    obtain ⟨next, isPut, folded⟩ := Option.bind_eq_some_iff.1 folded
    -- What stands behind the value ends it, be it a number.
    rw [readMembers_member (readKey_true text)
      (fields.complete colon isValue isPut (others.ended (by decide)))]
    exact ih folded
  | next comma here others ih =>
    obtain ⟨inner, ⟨behind, text, colon⟩, isValue⟩ := here
    rw [List.foldlM_cons] at folded
    obtain ⟨next, isPut, folded⟩ := Option.bind_eq_some_iff.1 folded
    rw [readMembers_member (readKey_false comma text)
      (fields.complete colon isValue isPut (others.ended (by decide)))]
    exact ih folded

end Members

/-! ## Fields -/

/-- Sets a field that has not been seen. -/
def putOnce {α σ : Type} (seen : Option α) (next : σ) : Option σ :=
  if seen.isSome then none else some next

theorem putOnce_eq_some_iff {α σ : Type} {seen : Option α} {put next : σ} :
    putOnce seen put = some next ↔ seen = none ∧ next = put := by
  cases seen <;> simp [putOnce, eq_comm]

/-- What is given for a field is what has been seen of it, if it is given once at most. -/
theorem eq_toList_iff {α : Type} {given : List α} {a : Option α} :
    given = a.toList ↔ given.length ≤ 1 ∧ a = given.head? := by
  match given with
  | [] => cases a <;> simp
  | [b] => cases a <;> simp [eq_comm]
  | b :: c :: rest => cases a <;> simp

theorem readField_unseen {α σ : Type} {name : String} {read : Reader α} {put : α → σ}
    {cs inner : List Char} (colon : Symbol ':' cs inner) :
    readField name none read put cs = (read inner).map fun (a, rest) => (put a, rest) := by
  rw [readField, if_neg (by simp), readColon_eq_ok_iff.2 colon]

theorem readField_eq_ok_iff {α σ : Type} {name : String} {seen : Option α} {read : Reader α}
    {put : α → σ} {next : σ} {cs rest : List Char} :
    readField name seen read put cs = .ok (next, rest) ↔
      seen = none ∧ ∃ inner a, Symbol ':' cs inner ∧ read inner = .ok (a, rest) ∧ next = put a := by
  unfold readField
  cases seen with
  | some b => simp
  | none =>
    rw [if_neg (by simp)]
    constructor
    · intro taken
      split at taken
      · cases taken
      · next inner colon =>
        obtain ⟨⟨a, behind⟩, read, same⟩ := map_eq_ok.1 taken
        cases same
        exact ⟨rfl, inner, a, readColon_eq_ok_iff.1 colon, read, rfl⟩
    · rintro ⟨_, inner, a, colon, read, rfl⟩
      rw [readColon_eq_ok_iff.2 colon]
      dsimp only
      rw [read, Except.map]

theorem skipField_eq_ok_iff {σ : Type} {state next : σ} {cs rest : List Char} :
    skipField state cs = .ok (next, rest) ↔
      ∃ inner, Symbol ':' cs inner ∧ skipValue inner = .ok rest ∧ next = state := by
  unfold skipField
  constructor
  · intro taken
    split at taken
    · cases taken
    · next inner colon =>
      obtain ⟨behind, skipped, same⟩ := map_eq_ok.1 taken
      cases same
      exact ⟨inner, readColon_eq_ok_iff.1 colon, skipped, rfl⟩
  · rintro ⟨inner, colon, skipped, rfl⟩
    rw [readColon_eq_ok_iff.2 colon]
    dsimp only
    rw [skipped, Except.map]

/-! ## Tagged values -/

theorem readVariant_eq_ok_iff {α : Type} {variants : List (Variant α)} {v : Variant α}
    {cs rest : List Char} :
    readVariant variants cs = .ok (v, rest) ↔
      ∃ name : String, variants.find? (·.name == name) = some v ∧
        StringBody cs name.toList rest := by
  unfold readVariant
  constructor
  · intro taken
    split at taken
    · cases taken
    · next text behind read =>
      dsimp only at taken
      split at taken
      · next found =>
        cases taken
        exact ⟨_, found, by rw [String.toList_ofList]; exact readString_eq_ok_iff.1 read⟩
      · cases taken
  · rintro ⟨name, found, body⟩
    rw [readString_eq_ok_iff.2 body]
    dsimp only
    rw [String.ofList_toList, found]

theorem text_of_readVariantKey {α : Type} {variants : List (Variant α)} {v : Variant α}
    {cs rest : List Char} (taken : readVariantKey variants cs = .ok (v, rest)) :
    ∃ name, variants.find? (·.name == name) = some v ∧ Text cs name rest := by
  unfold readVariantKey at taken
  split at taken
  · cases taken
  · next inner start =>
    obtain ⟨name, found, body⟩ := readVariant_eq_ok_iff.1 taken
    exact ⟨name, found, inner, symbol_of_skipBlanks start, body⟩
  · cases taken
  · cases taken

theorem closing_of_closeTagged {α : Type} {a b : α} {cs rest : List Char}
    (taken : closeTagged a cs = .ok (b, rest)) : a = b ∧ Symbol '\x7d' cs rest := by
  unfold closeTagged at taken
  split at taken
  · cases taken
  · next start =>
    cases taken
    exact ⟨rfl, symbol_of_skipBlanks start⟩
  · cases taken

theorem closeTagged_of_symbol {α : Type} {a : α} {cs rest : List Char}
    (closes : Symbol '\x7d' cs rest) : closeTagged a cs = .ok (a, rest) := by
  rw [closeTagged, (symbol_iff (by decide)).1 closes]
  rfl

/-- What becomes of an object whose key names a variant is up to the reader of the variant. -/
theorem readTagged_object {α : Type} {variants : List (Variant α)} {v : Variant α} {name : String}
    {cs inner value : List Char} (found : variants.find? (·.name == name) = some v)
    (opens : Symbol '\x7b' cs inner) (key : Key inner name value) :
    readTagged variants cs = (v.read value).bind fun (a, rest) => closeTagged a rest := by
  obtain ⟨after, ⟨inside, quote, body⟩, colon⟩ := key
  have named := readVariant_eq_ok_iff.2 ⟨name, found, body⟩
  rw [readTagged, (symbol_iff (by decide)).1 opens]
  simp only [readVariantKey, (symbol_iff (by decide)).1 quote, named, readColon_eq_ok_iff.2 colon]
  cases v.read value <;> rfl

/-- A tagged value is the name of a variant that stands alone, or an object whose only key
is the name. -/
theorem readTagged_eq_ok_iff {α : Type} {variants : List (Variant α)} {a : α}
    {cs rest : List Char} :
    readTagged variants cs = .ok (a, rest) ↔
      ∃ name v, variants.find? (·.name == name) = some v ∧
        (Text cs name rest ∧ v.bare = .ok a ∨
          ∃ inner value behind, Symbol '\x7b' cs inner ∧ Key inner name value ∧
            v.read value = .ok (a, behind) ∧ Symbol '\x7d' behind rest) := by
  constructor
  · intro taken
    unfold readTagged at taken
    split at taken
    · cases taken
    · next inner start =>
      split at taken
      · cases taken
      · next v after named =>
        obtain ⟨name, found, text⟩ := text_of_readVariantKey named
        split at taken
        · cases taken
        · next value colon =>
          split at taken
          · cases taken
          · next a' behind read =>
            obtain ⟨rfl, closes⟩ := closing_of_closeTagged taken
            exact ⟨name, v, found, .inr ⟨inner, value, behind, symbol_of_skipBlanks start,
              ⟨after, text, readColon_eq_ok_iff.1 colon⟩, read, closes⟩⟩
    · next inner start =>
      split at taken
      · cases taken
      · next v behind named =>
        obtain ⟨name, found, body⟩ := readVariant_eq_ok_iff.1 named
        split at taken
        · next bare =>
          cases taken
          exact ⟨name, v, found, .inl ⟨⟨inner, symbol_of_skipBlanks start, body⟩, bare⟩⟩
        · cases taken
    · cases taken
  · rintro ⟨name, v, found, ⟨⟨inner, quote, body⟩, bare⟩ |
      ⟨inner, value, behind, opens, key, read, closes⟩⟩
    · rw [readTagged, (symbol_iff (by decide)).1 quote]
      have named := readVariant_eq_ok_iff.2 ⟨name, found, body⟩
      simp [named, bare]
    · rw [readTagged_object found opens key, read]
      exact closeTagged_of_symbol closes

/-- An object whose only key is a name. -/
def TaggedText (name : String) (payload : List Char → List Char → Prop) (cs rest : List Char) :
    Prop :=
  ∃ inner value behind, Symbol '\x7b' cs inner ∧ Key inner name value ∧ payload value behind ∧
    Symbol '\x7d' behind rest

theorem TaggedText.skipBlanks_iff {name : String} {payload : List Char → List Char → Prop}
    {cs rest : List Char} :
    TaggedText name payload (skipBlanks cs) rest ↔ TaggedText name payload cs rest :=
  exists_congr fun _ => exists_congr fun _ => exists_congr fun _ =>
    and_congr_left fun _ => symbol_skipBlanks_iff (by decide)

theorem TaggedText.starts {name : String} {payload : List Char → List Char → Prop}
    {cs rest : List Char} (tagged : TaggedText name payload cs rest) : Starts cs := by
  obtain ⟨_, _, _, opens, _⟩ := tagged
  exact starts_of_symbol opens (by decide) (by decide)

/-- The variants take exactly the payloads of a grammar, as long as nothing behind them goes
on with a number. None of them is a name that stands alone. -/
structure Tags {α : Type} (variants : List (Variant α)) (tag : α → String)
    (payload : α → List Char → List Char → Prop) : Prop where
  /-- No name stands for a value. -/
  bare : ∀ {v a}, v ∈ variants → v.bare ≠ .ok a
  /-- What is read is a payload, under the name that belongs to it. -/
  sound : ∀ {v a cs rest}, v ∈ variants → v.read cs = .ok (a, rest) → Ended rest →
    v.name = tag a ∧ payload a cs rest
  /-- Every payload is read. -/
  complete : ∀ {a cs rest}, payload a cs rest → Ended rest →
    ∃ v, variants.find? (·.name == tag a) = some v ∧ v.read cs = .ok (a, rest)

theorem Tags.readTagged_iff {α : Type} {variants : List (Variant α)} {tag : α → String}
    {payload : α → List Char → List Char → Prop} (tags : Tags variants tag payload)
    {a : α} {cs rest : List Char} :
    readTagged variants cs = .ok (a, rest) ↔ TaggedText (tag a) (payload a) cs rest := by
  rw [readTagged_eq_ok_iff]
  constructor
  · rintro ⟨name, v, found, ⟨_, bare⟩ | ⟨inner, value, behind, opens, key, read, closes⟩⟩
    · exact absurd bare (tags.bare (List.mem_of_find?_eq_some found))
    · have named := List.find?_some found
      have named : v.name = name := beq_iff_eq.1 named
      -- The brace behind a payload ends it, be it a number.
      obtain ⟨same, isPayload⟩ := tags.sound (List.mem_of_find?_eq_some found) read
        (ended_of_symbol closes (by decide))
      have key : Key inner (tag a) value := by rwa [← same, named]
      exact ⟨inner, value, behind, opens, key, isPayload, closes⟩
  · rintro ⟨inner, value, behind, opens, key, isPayload, closes⟩
    obtain ⟨v, found, read⟩ := tags.complete isPayload (ended_of_symbol closes (by decide))
    exact ⟨tag a, v, found, .inr ⟨inner, value, behind, opens, key, read, closes⟩⟩

end Gremlin.Json
