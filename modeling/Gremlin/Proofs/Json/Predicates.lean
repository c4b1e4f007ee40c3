import Gremlin.Proofs.Json.RoundTrip
import Gremlin.Proofs.Session.Readable

/-!
# How predicates come about

A predicate is built on request or read from JSON. What is built is a text of the caller's own or
a call of a known predicate with as many arguments as it takes. The reader of JSON checks neither
the name of a call nor the number of its arguments, so that it also gives calls that no request
builds.

Results:
1. `wellFormed_iff_built`: the predicates that can be built.
2. `text_ne_empty_call`, `callReader_text`: how the text of a well-formed call ends.
3. `obtained_predicates`: what can be obtained, and what is known of it.
4. `empty_call_read`: a membership in an empty list that is read from JSON.
-/

namespace Gremlin

open Reader

namespace Comparer

/-! ## Definitions -/

/-- Whether the name is that of a predicate that takes so many arguments. -/
def takes (name : String) (count : Nat) : Bool :=
  if name ∈ ["eq", "neq", "lt", "lte", "gt", "gte"] then count == 1
  else if name ∈ ["inside", "outside", "between"] then count == 2
  else decide (name ∈ ["within", "without"]) && decide (0 < count)

/-- A text of the caller's own, or a call of a known predicate with as many arguments as it
takes. -/
def WellFormed : Comparer → Prop
  | raw _ => True
  | call name args => takes name args.length = true

/-- The ways in which a predicate comes about. -/
inductive Obtained : Comparer → Prop
  | built {r : Request} {p : Comparer} : r.build = .ok p → Obtained p
  | read {text : String} {p : Comparer} : Comparer.ofJson text = .ok p → Obtained p

instance (p : Comparer) : Decidable p.WellFormed :=
  match p with
  | raw _ => .isTrue trivial
  | call name args => inferInstanceAs (Decidable (takes name args.length = true))

/-! ## Building -/

theorem exists_request_of_takes {name : String} {args : List Value}
    (takes : takes name args.length = true) : ∃ r : Request, r.build = .ok (.call name args) := by
  unfold Comparer.takes at takes
  split at takes
  · next one =>
    obtain ⟨v, rfl⟩ := List.length_eq_one_iff.1 (beq_iff_eq.1 takes)
    simp only [List.mem_cons, List.not_mem_nil, or_false] at one
    rcases one with rfl | rfl | rfl | rfl | rfl | rfl
    · exact ⟨.compare .eq v, rfl⟩
    · exact ⟨.compare .neq v, rfl⟩
    · exact ⟨.compare .lt v, rfl⟩
    · exact ⟨.compare .lte v, rfl⟩
    · exact ⟨.compare .gt v, rfl⟩
    · exact ⟨.compare .gte v, rfl⟩
  · split at takes
    · next two =>
      obtain ⟨low, high, rfl⟩ := List.length_eq_two.1 (beq_iff_eq.1 takes)
      simp only [List.mem_cons, List.not_mem_nil, or_false] at two
      rcases two with rfl | rfl | rfl
      · exact ⟨.range .inside low high, rfl⟩
      · exact ⟨.range .outside low high, rfl⟩
      · exact ⟨.range .between low high, rfl⟩
    · obtain ⟨many, some⟩ := Bool.and_eq_true_iff.1 takes
      obtain ⟨v, rest, rfl⟩ := List.exists_cons_of_length_pos (of_decide_eq_true some)
      have many := of_decide_eq_true many
      simp only [List.mem_cons, List.not_mem_nil, or_false] at many
      rcases many with rfl | rfl
      · exact ⟨.member .within (v :: rest), rfl⟩
      · exact ⟨.member .without (v :: rest), rfl⟩

/-- What is built is well formed, and everything well formed can be built. -/
theorem wellFormed_iff_built {p : Comparer} : p.WellFormed ↔ ∃ r : Request, r.build = .ok p := by
  constructor
  · intro wellFormed
    cases p with
    | raw text => exact ⟨.raw text, rfl⟩
    | call name args => exact exists_request_of_takes wellFormed
  · rintro ⟨r, made⟩
    cases r with
    | raw text =>
      cases made
      exact trivial
    | compare c value =>
      cases made
      cases c <;> rfl
    | range r low high =>
      cases made
      cases r <;> rfl
    | member m values =>
      cases values with
      | nil => cases made
      | cons value values =>
        cases made
        cases m <;> rfl

/-! ## Calls in a text -/

section Call

variable {name : String} {args : List Value}

theorem isWord_of_wellFormed (wellFormed : (call name args).WellFormed) : IsWord name.toList := by
  obtain ⟨r, made⟩ := wellFormed_iff_built.1 wellFormed
  exact Session.isWord_of_build made

theorem args_ne_nil_of_wellFormed (wellFormed : (call name args).WellFormed) : args ≠ [] := by
  rintro rfl
  obtain ⟨r, made⟩ := wellFormed_iff_built.1 wellFormed
  cases r with
  | member m values => cases values <;> cases made
  | _ => cases made

theorem toList_text_call (q : Quoting) : ((call name args).text q).toList =
    name.toList ++ '(' :: ((",".intercalate (args.map (Value.text q))).toList ++ [')']) := by
  simp [text]

theorem value_text_ne_nil (q : Quoting) (v : Value) : (v.text q).toList ≠ [] := by
  cases v with
  | string s => cases q <;> simp [Value.text, Quoting.quote]
  | integer n => exact (isWord_integerText n).1
  | double d => exact d.text_ne_nil
  | boolean b => cases b <;> simp [Value.text]

theorem arguments_ne_nil (some : args ≠ []) (q : Quoting) :
    (",".intercalate (args.map (Value.text q))).toList ≠ [] := by
  obtain ⟨v, rest, rfl⟩ := List.exists_cons_of_ne_nil some
  rw [String.toList_intercalate, List.map_cons, List.map_cons]
  cases rest with
  | nil =>
    rw [List.map_nil, List.map_nil, List.intercalate_singleton]
    exact value_text_ne_nil q v
  | cons w rest =>
    rw [List.map_cons, List.map_cons, List.intercalate_cons_cons, List.append_assoc]
    exact List.append_ne_nil_of_left_ne_nil (value_text_ne_nil q v) _

/-- A call with arguments has something between its parentheses, in either quoting. -/
theorem text_ne_empty_call (isWord : IsWord name.toList) (some : args ≠ []) (q : Quoting)
    {word : List Char} (isWord' : IsWord word) :
    ((call name args).text q).toList ≠ word ++ ['(', ')'] := by
  intro same
  rw [toList_text_call] at same
  have noWord : isBare '(' = false := by decide
  -- What stands behind the bare characters is the same in both texts.
  have left := (run_append (p := isBare)
    ('(' :: ((",".intercalate (args.map (Value.text q))).toList ++ [')'])) isWord.2
    (by simp [noWord])).2
  have right := (run_append (p := isBare) ['(', ')'] isWord'.2 (by simp [noWord])).2
  rw [same, right] at left
  exact arguments_ne_nil some q
    (List.append_left_eq_self.1 (List.tail_eq_of_cons_eq left).symm)

theorem text_ne_of_wellFormed (wellFormed : (call name args).WellFormed) (q : Quoting) :
    (call name args).text q ≠ "within()" ∧ (call name args).text q ≠ "without()" := by
  have apart {word : List Char} (isWord : IsWord word) :=
    text_ne_empty_call (isWord_of_wellFormed wellFormed) (args_ne_nil_of_wellFormed wellFormed) q
      isWord
  have within : IsWord "within".toList := by decide
  have without : IsWord "without".toList := by decide
  exact ⟨fun same => apart within (congrArg String.toList same),
    fun same => apart without (congrArg String.toList same)⟩

/-- The text of a call ends with the parenthesis behind its arguments. -/
theorem callReader_text (isWord : IsWord name.toList) (rest : List Char) :
    callReader (((call name args).text .escaped).toList ++ rest) =
      some (.call name (args.map Value.canonical), rest) := by
  have read := callReader_append isWord args rest
  rw [toList_text_call]
  simpa [argsText] using read

end Call

open Statement

/-- What is built is exactly what is well formed, and what is obtained otherwise is a call that was
read from JSON, which gives every predicate without doubles. A well-formed call is never written
without arguments. With escaped literals its text ends with its own parenthesis whatever follows,
so that the step it stands in is read with the call and nothing more. -/
theorem obtained_predicates (p : Comparer) :
    (p.WellFormed ↔ ∃ r : Request, r.build = .ok p) ∧
    (p.Obtained →
      p.WellFormed ∨ ∃ name args text, p = .call name args ∧ Comparer.ofJson text = .ok p) ∧
    (p.doubles = [] → Comparer.ofJson p.toJson = .ok p ∧ p.Obtained) ∧
    ∀ name args, p = .call name args → p.WellFormed →
      (∀ q, p.text q ≠ "within()" ∧ p.text q ≠ "without()") ∧
      (∀ rest, callReader ((p.text .escaped).toList ++ rest) =
        some (.call name (args.map Value.canonical), rest)) ∧
      ∀ (c : Config) (key : String) (goal : Reader Gremlin.Reading) (rest : List Char),
        c.quoting = .escaped →
        stepReader goal ((fragment c (.has key (.predicate p))).toList ++ rest) =
          some (.has key (.predicate (.call name (args.map Value.canonical))), rest) := by
  refine ⟨wellFormed_iff_built, fun obtained => ?_, fun plain => ?_, ?_⟩
  · cases obtained with
    | built made => exact .inl (wellFormed_iff_built.2 ⟨_, made⟩)
    | @read text _ read =>
      cases p with
      | raw _ => exact .inl trivial
      | call name args => exact .inr ⟨name, args, text, rfl, read⟩
  · have read := (Json.readsBack_comparer plain).readAll
    exact ⟨read, .read read⟩
  · rintro name args rfl wellFormed
    have isWord := isWord_of_wellFormed wellFormed
    refine ⟨text_ne_of_wellFormed wellFormed, callReader_text isWord, ?_⟩
    intro c key goal rest escaped
    have readable : Step.Readable (.has key (.predicate (.call name args))) := isWord
    exact stepReader_fragment escaped readable (fun e s same => by cases same) rest

/-- A list of one text that holds the parenthesis of the call. -/
theorem obtained_predicates_within :
    (Comparer.call "within" [.string "')"]).text .escaped ≠ "within()" ∧
    ∀ rest, callReader (((Comparer.call "within" [.string "')"]).text .escaped).toList ++ rest) =
      some (.call "within" [.string "')"], rest) := by
  obtain ⟨-, -, -, written⟩ := obtained_predicates (.call "within" [.string "')"])
  obtain ⟨some, read, -⟩ := written _ _ rfl (by decide)
  exact ⟨(some .escaped).1, read⟩

/-- A membership in an empty list cannot be built, but is read from JSON and written without
arguments. -/
theorem empty_call_read :
    Comparer.ofJson "\x7b\"Call\":\x7b\"name\":\"within\",\"args\":[]\x7d\x7d" =
      .ok (.call "within" []) ∧
    ¬ (Comparer.call "within" []).WellFormed ∧
    (Comparer.call "within" []).text .escaped = "within()" := by
  refine ⟨by decide +kernel, by decide, by decide +kernel⟩

end Comparer

end Gremlin
