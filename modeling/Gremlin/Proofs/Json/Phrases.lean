import Gremlin.Json.Scalar
import Gremlin.Json.Tagged

/-!
# Phrases of JSON

A phrase is told by what stands in front of it being read and what is left behind it, as
a relation of two texts: no reader is asked. Blanks before a phrase belong to it. The
readers of scalars are shown to take exactly their phrases.

Results:
1. `readString_eq_ok_iff`: the escapes of a string are resolved as the grammar says.
2. `readText_eq_ok_iff`, `readBoolean_eq_ok_iff`, `readNull_eq_ok_iff`: scalars.
3. `readColon_eq_ok_iff`: what stands between the key of a member and its value.
-/

namespace Gremlin.Json

/-! ## Blanks and punctuation -/

/-- Blanks stand before what is left. -/
def Blanks (cs rest : List Char) : Prop :=
  ∃ blanks, (∀ c ∈ blanks, isBlank c = true) ∧ cs = blanks ++ rest

/-- A character stands behind blanks. -/
def Symbol (c : Char) (cs rest : List Char) : Prop := Blanks cs (c :: rest)

/-- A word stands behind blanks. -/
def Word (word cs rest : List Char) : Prop := Blanks cs (word ++ rest)

theorem Blanks.refl (cs : List Char) : Blanks cs cs := ⟨[], by simp, rfl⟩

theorem Blanks.trans {a b c : List Char} (left : Blanks a b) (right : Blanks b c) :
    Blanks a c := by
  obtain ⟨front, frontBlank, rfl⟩ := left
  obtain ⟨back, backBlank, rfl⟩ := right
  refine ⟨front ++ back, fun c member => ?_, (List.append_assoc _ _ _).symm⟩
  rcases List.mem_append.1 member with inside | behind
  · exact frontBlank c inside
  · exact backBlank c behind

theorem blanks_skipBlanks (cs : List Char) : Blanks cs (skipBlanks cs) := by
  induction cs with
  | nil => exact .refl []
  | cons c rest ih =>
    unfold skipBlanks
    split
    · next blank =>
      have single : Blanks (c :: rest) rest := ⟨[c], by simpa using blank, rfl⟩
      exact single.trans ih
    · exact .refl _

/-- Blanks make no difference to what stands behind them. -/
theorem skipBlanks_eq_of_blanks {cs rest : List Char} (blanks : Blanks cs rest) :
    skipBlanks cs = skipBlanks rest := by
  obtain ⟨front, blank, rfl⟩ := blanks
  induction front with
  | nil => rfl
  | cons c front ih =>
    have first : isBlank c = true := blank c List.mem_cons_self
    rw [List.cons_append, skipBlanks, if_pos first,
      ih fun d member => blank d (List.mem_cons_of_mem _ member)]

theorem skipBlanks_cons {c : Char} (ink : isBlank c = false) (rest : List Char) :
    skipBlanks (c :: rest) = c :: rest := by
  rw [skipBlanks, if_neg (by simp [ink])]

/-- What is left behind all blanks does not start with one. -/
theorem isBlank_of_skipBlanks {cs rest : List Char} {c : Char}
    (skipped : skipBlanks cs = c :: rest) : isBlank c = false := by
  induction cs with
  | nil => cases skipped
  | cons d tail ih =>
    unfold skipBlanks at skipped
    split at skipped
    · exact ih skipped
    · next ink =>
      cases skipped
      simpa using ink

theorem symbol_iff {c : Char} (ink : isBlank c = false) {cs rest : List Char} :
    Symbol c cs rest ↔ skipBlanks cs = c :: rest := by
  constructor
  · intro symbol
    rw [skipBlanks_eq_of_blanks symbol, skipBlanks_cons ink]
  · intro skipped
    rw [Symbol, ← skipped]
    exact blanks_skipBlanks cs

theorem symbol_of_skipBlanks {c : Char} {cs rest : List Char}
    (skipped : skipBlanks cs = c :: rest) : Symbol c cs rest :=
  (symbol_iff (isBlank_of_skipBlanks skipped)).2 skipped

/-- Nothing changes if the blanks are dropped beforehand. -/
theorem symbol_skipBlanks_iff {c : Char} (ink : isBlank c = false) {cs rest : List Char} :
    Symbol c (skipBlanks cs) rest ↔ Symbol c cs rest := by
  rw [symbol_iff ink, symbol_iff ink, ← skipBlanks_eq_of_blanks (blanks_skipBlanks cs)]

theorem blanks_nil_iff {cs : List Char} : Blanks cs [] ↔ skipBlanks cs = [] := by
  constructor
  · intro blanks
    rw [skipBlanks_eq_of_blanks blanks, skipBlanks]
  · intro skipped
    rw [← skipped]
    exact blanks_skipBlanks cs

theorem readWord_eq_ok_iff {word cs rest : List Char} :
    readWord word cs = .ok rest ↔ cs = word ++ rest := by
  fun_induction readWord word cs with
  | case1 cs => simp [eq_comm]
  | case2 w word => simp
  | case3 w word cs ih => simp [ih]
  | case4 w word c cs other => simp [other]

theorem readWord_append (word rest : List Char) : readWord word (word ++ rest) = .ok rest :=
  readWord_eq_ok_iff.2 rfl

theorem word_of_readWord {c : Char} {word cs behind rest : List Char}
    (start : skipBlanks cs = c :: behind) (taken : readWord word behind = .ok rest) :
    Word (c :: word) cs rest := by
  rw [readWord_eq_ok_iff.1 taken] at start
  exact symbol_of_skipBlanks start

theorem skipBlanks_of_word {c : Char} (ink : isBlank c = false) {word cs rest : List Char}
    (stands : Word (c :: word) cs rest) : skipBlanks cs = c :: (word ++ rest) :=
  (symbol_iff ink).1 stands

/-! ## Strings -/

/-- What may stand behind a backslash, and the character it means: a single character, a
code unit in four hexadecimal digits, or both halves of a surrogate pair. -/
inductive Escape : List Char → Char → List Char → Prop
  | simple {c d : Char} {rest : List Char} (known : simpleEscape? c = some d) :
      Escape (c :: rest) d rest
  | unit {a b c d : Char} {n : Nat} {rest : List Char} (digits : hexFour? a b c d = some n)
      (whole : isLeading n = false ∧ isTrailing n = false) :
      Escape ('u' :: a :: b :: c :: d :: rest) (.ofNat n) rest
  | pair {a b c d a' b' c' d' : Char} {m n : Nat} {rest : List Char}
      (digits : hexFour? a b c d = some m) (leading : isLeading m = true)
      (digits' : hexFour? a' b' c' d' = some n) (trailing : isTrailing n = true) :
      Escape ('u' :: a :: b :: c :: d :: '\\' :: 'u' :: a' :: b' :: c' :: d' :: rest)
        (.ofNat ((m - 0xd800) * 0x400 + (n - 0xdc00) + 0x10000)) rest

/-- What may stand behind a backslash where the text does not matter: any code unit will
do. -/
inductive LaxEscape : List Char → List Char → Prop
  | simple {c d : Char} {rest : List Char} (known : simpleEscape? c = some d) :
      LaxEscape (c :: rest) rest
  | unit {a b c d : Char} {n : Nat} {rest : List Char} (digits : hexFour? a b c d = some n) :
      LaxEscape ('u' :: a :: b :: c :: d :: rest) rest

/-- Whether a character stands for itself in a string. -/
def IsPlain (c : Char) : Prop := c ≠ '"' ∧ c ≠ '\\' ∧ isControl c = false

/-- The rest of a string behind its opening quote, and its text. -/
inductive StringBody : List Char → List Char → List Char → Prop
  | close {rest : List Char} : StringBody ('"' :: rest) [] rest
  | plain {c : Char} {cs text rest : List Char} (itself : IsPlain c)
      (body : StringBody cs text rest) : StringBody (c :: cs) (c :: text) rest
  | escape {d : Char} {cs behind text rest : List Char} (escape : Escape cs d behind)
      (body : StringBody behind text rest) : StringBody ('\\' :: cs) (d :: text) rest

/-- The rest of a string whose text does not matter. -/
inductive LaxBody : List Char → List Char → Prop
  | close {rest : List Char} : LaxBody ('"' :: rest) rest
  | plain {c : Char} {cs rest : List Char} (itself : IsPlain c) (body : LaxBody cs rest) :
      LaxBody (c :: cs) rest
  | escape {cs behind rest : List Char} (escape : LaxEscape cs behind)
      (body : LaxBody behind rest) : LaxBody ('\\' :: cs) rest

/-- A string and its text. -/
def Text (cs : List Char) (text : String) (rest : List Char) : Prop :=
  ∃ body, Symbol '"' cs body ∧ StringBody body text.toList rest

/-- A string that is the key of a member, and the colon behind it. -/
def Key (cs : List Char) (key : String) (rest : List Char) : Prop :=
  ∃ behind, Text cs key behind ∧ Symbol ':' behind rest

theorem readHex_of_digits {a b c d : Char} {n : Nat} (digits : hexFour? a b c d = some n)
    (rest : List Char) : readHex (a :: b :: c :: d :: rest) = .ok (n, rest) := by
  rw [readHex, digits]

theorem exists_of_readHex {cs rest : List Char} {n : Nat} (taken : readHex cs = .ok (n, rest)) :
    ∃ a b c d, hexFour? a b c d = some n ∧ cs = a :: b :: c :: d :: rest := by
  unfold readHex at taken
  split at taken
  · next a b c d behind =>
    split at taken
    · next digits =>
      cases taken
      exact ⟨a, b, c, d, digits, rfl⟩
    · cases taken
  · cases taken

theorem exists_of_readTrailing {m : Nat} {cs rest : List Char} {e : Char}
    (taken : readTrailing m cs = .ok (e, rest)) :
    ∃ a b c d n, hexFour? a b c d = some n ∧ isTrailing n = true ∧
      cs = '\\' :: 'u' :: a :: b :: c :: d :: rest ∧
      e = .ofNat ((m - 0xd800) * 0x400 + (n - 0xdc00) + 0x10000) := by
  unfold readTrailing at taken
  split at taken
  · cases taken
  · cases taken
  · next behind =>
    split at taken
    · cases taken
    · next n behind' read =>
      split at taken
      · next trailing =>
        obtain ⟨a, b, c, d, digits, rfl⟩ := exists_of_readHex read
        simp only [Except.ok.injEq, Prod.mk.injEq] at taken
        obtain ⟨made, same⟩ := taken
        exact ⟨a, b, c, d, n, digits, trailing, by rw [same], made.symm⟩
      · cases taken
  · cases taken
  · cases taken

theorem isTrailing_of_isLeading {n : Nat} (leading : isLeading n = true) :
    isTrailing n = false := by
  unfold isLeading at leading
  unfold isTrailing
  grind

theorem escape_of_readCodePoint {cs rest : List Char} {d : Char}
    (taken : readCodePoint cs = .ok (d, rest)) : Escape ('u' :: cs) d rest := by
  unfold readCodePoint at taken
  split at taken
  · cases taken
  · next n behind read =>
    obtain ⟨a, b, c, d, digits, rfl⟩ := exists_of_readHex read
    split at taken
    · cases taken
    · next single =>
      split at taken
      · next leading =>
        obtain ⟨a', b', c', d', n', digits', trailing, rfl, made⟩ := exists_of_readTrailing taken
        rw [made]
        exact .pair digits leading digits' trailing
      · next whole =>
        cases taken
        exact .unit digits ⟨by simpa using whole, by simpa using single⟩

theorem readEscape_eq_ok_iff {cs rest : List Char} {d : Char} :
    readEscape cs = .ok (d, rest) ↔ Escape cs d rest := by
  constructor
  · intro taken
    unfold readEscape at taken
    split at taken
    · cases taken
    · next c behind =>
      split at taken
      · next unit =>
        subst unit
        exact escape_of_readCodePoint taken
      · split at taken
        · next known =>
          cases taken
          exact .simple known
        · cases taken
  · intro escape
    cases escape with
    | @simple c d rest known =>
      have letter : c ≠ 'u' := by
        rintro rfl
        cases known
      rw [readEscape, if_neg letter, known]
    | unit digits whole =>
      rw [readEscape, if_pos rfl, readCodePoint, readHex_of_digits digits]
      simp [whole]
    | pair digits leading digits' trailing =>
      have single := isTrailing_of_isLeading leading
      rw [readEscape, if_pos rfl, readCodePoint, readHex_of_digits digits]
      simp [single, leading, readTrailing, readHex_of_digits digits', trailing]

theorem readString_eq_ok_iff {cs text rest : List Char} :
    readString cs = .ok (text, rest) ↔ StringBody cs text rest := by
  constructor
  · intro taken
    fun_induction readString cs generalizing text rest with
    | case1 => cases taken
    | case2 =>
      cases taken
      exact .close
    | case3 => cases taken
    | case4 => cases taken
    | case5 behind d behind' escaped text' rest' inner notQuote ih =>
      cases taken
      exact .escape (readEscape_eq_ok_iff.1 escaped) (ih inner)
    | case6 => cases taken
    | case7 => cases taken
    | case8 c behind notQuote notEscape ordinary text' rest' inner ih =>
      cases taken
      exact .plain ⟨notQuote, notEscape, by simpa using ordinary⟩ (ih inner)
  · intro body
    induction body with
    | close => rw [readString, if_pos rfl]
    | plain itself body ih =>
      rw [readString, if_neg itself.1, if_neg itself.2.1, if_neg (by simp [itself.2.2]), ih]
    | escape escape body ih =>
      rw [readString, if_neg (by decide), if_pos rfl]
      split
      · next failed =>
        rw [readEscape_eq_ok_iff.2 escape] at failed
        cases failed
      · next taken =>
        rw [readEscape_eq_ok_iff.2 escape] at taken
        cases taken
        rw [ih]

theorem skipEscape_eq_ok_iff {cs rest : List Char} :
    skipEscape cs = .ok rest ↔ LaxEscape cs rest := by
  constructor
  · intro taken
    unfold skipEscape at taken
    split at taken
    · cases taken
    · next c behind =>
      split at taken
      · next unit =>
        subst unit
        obtain ⟨⟨n, behind'⟩, read, rfl⟩ := map_eq_ok.1 taken
        obtain ⟨a, b, c, d, digits, rfl⟩ := exists_of_readHex read
        exact .unit digits
      · split at taken
        · next known =>
          cases taken
          exact .simple known
        · cases taken
  · intro escape
    cases escape with
    | @simple c d rest known =>
      have letter : c ≠ 'u' := by
        rintro rfl
        cases known
      rw [skipEscape, if_neg letter, known]
    | unit digits =>
      rw [skipEscape, if_pos rfl, readHex_of_digits digits]
      rfl

theorem skipString_eq_ok_iff {cs rest : List Char} :
    skipString cs = .ok rest ↔ LaxBody cs rest := by
  constructor
  · intro taken
    fun_induction skipString cs with
    | case1 => cases taken
    | case2 =>
      cases taken
      exact .close
    | case3 => cases taken
    | case4 behind behind' escaped notQuote ih =>
      exact .escape (skipEscape_eq_ok_iff.1 escaped) (ih taken)
    | case5 => cases taken
    | case6 c behind notQuote notEscape ordinary ih =>
      exact .plain ⟨notQuote, notEscape, by simpa using ordinary⟩ (ih taken)
  · intro body
    induction body with
    | close => rw [skipString, if_pos rfl]
    | plain itself body ih =>
      rw [skipString, if_neg itself.1, if_neg itself.2.1, if_neg (by simp [itself.2.2]), ih]
    | escape escape body ih =>
      rw [skipString, if_neg (by decide), if_pos rfl]
      split
      · next failed =>
        rw [skipEscape_eq_ok_iff.2 escape] at failed
        cases failed
      · next taken =>
        rw [skipEscape_eq_ok_iff.2 escape] at taken
        cases taken
        exact ih

/-! ## Scalars -/

theorem exists_text_of_map {cs rest : List Char} {text : String}
    (taken : ((readString cs).map fun (text, rest) => (String.ofList text, rest)) =
      .ok (text, rest)) : StringBody cs text.toList rest := by
  obtain ⟨⟨inner, behind⟩, read, same⟩ := map_eq_ok.1 taken
  cases same
  rw [String.toList_ofList]
  exact readString_eq_ok_iff.1 read

theorem readText_eq_ok_iff {wanted : Wanted} {cs rest : List Char} {text : String} :
    readText wanted cs = .ok (text, rest) ↔ Text cs text rest := by
  constructor
  · intro taken
    unfold readText at taken
    split at taken
    · next body start => exact ⟨body, symbol_of_skipBlanks start, exists_text_of_map taken⟩
    · cases taken
  · rintro ⟨body, symbol, inside⟩
    rw [readText, (symbol_iff (by decide)).1 symbol]
    show (readString body).map _ = _
    rw [readString_eq_ok_iff.2 inside]
    exact congrArg (fun text => Except.ok (text, rest)) String.ofList_toList

theorem text_skipBlanks_iff {cs rest : List Char} {text : String} :
    Text (skipBlanks cs) text rest ↔ Text cs text rest :=
  exists_congr fun _ => and_congr_left fun _ => symbol_skipBlanks_iff (by decide)

/-- The name of a truth value. -/
def booleanWord (b : Bool) : List Char :=
  if b then ['t', 'r', 'u', 'e'] else ['f', 'a', 'l', 's', 'e']

theorem readBoolean_eq_ok_iff {cs rest : List Char} {b : Bool} :
    readBoolean cs = .ok (b, rest) ↔ Word (booleanWord b) cs rest := by
  constructor
  · intro taken
    unfold readBoolean at taken
    split at taken
    · next start =>
      obtain ⟨_, _, same⟩ := map_eq_ok.1 taken
      cases same
      exact word_of_readWord start (eq_ok_of_map taken)
    · next start =>
      obtain ⟨_, _, same⟩ := map_eq_ok.1 taken
      cases same
      exact word_of_readWord start (eq_ok_of_map taken)
    · cases taken
  · intro word
    cases b with
    | true =>
      rw [readBoolean, skipBlanks_of_word (by decide) word]
      show (readWord ['r', 'u', 'e'] _).map _ = _
      rw [readWord_append, Except.map]
    | false =>
      rw [readBoolean, skipBlanks_of_word (by decide) word]
      show (readWord ['a', 'l', 's', 'e'] _).map _ = _
      rw [readWord_append, Except.map]

theorem readNull_eq_ok_iff {cs rest : List Char} :
    readNull cs = .ok ((), rest) ↔ Word ['n', 'u', 'l', 'l'] cs rest := by
  constructor
  · intro taken
    unfold readNull at taken
    split at taken
    · next start => exact word_of_readWord start (eq_ok_of_map taken)
    · cases taken
  · intro word
    rw [readNull, skipBlanks_of_word (by decide) word]
    show (readWord ['u', 'l', 'l'] _).map _ = _
    rw [readWord_append, Except.map]

/-! ## Members -/

theorem readColon_eq_ok_iff {cs rest : List Char} :
    readColon cs = .ok rest ↔ Symbol ':' cs rest := by
  rw [symbol_iff (by decide)]
  unfold readColon
  split <;> grind

end Gremlin.Json
