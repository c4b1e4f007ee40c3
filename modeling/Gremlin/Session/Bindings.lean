/-!
# Names and what they stand for

A finite map from names: pairs in which no name occurs twice. Changes keep the names
distinct, so a name stands for one thing at most.

Results:
1. `get?_set`, `get?_erase`: what a name stands for after a change.
-/

namespace Gremlin

/-- Names and what they stand for. -/
structure Bindings (α : Type) where
  pairs : List (String × α)
  /-- No name occurs twice. -/
  distinct : (pairs.map Prod.fst).Nodup

namespace Bindings

variable {α : Type}

/-! ## Definitions -/

/-- No name stands for anything. -/
def empty : Bindings α := ⟨[], .nil⟩

/-- What a name stands for. -/
def get? (b : Bindings α) (name : String) : Option α := b.pairs.lookup name

/-- Removes a name. -/
def erase (b : Bindings α) (name : String) : Bindings α where
  pairs := b.pairs.filter (·.1 != name)
  distinct := (List.filter_sublist.map Prod.fst).nodup b.distinct

/-- Lets a name stand for something, whatever it stood for before. -/
def set (b : Bindings α) (name : String) (a : α) : Bindings α where
  pairs := (name, a) :: (b.erase name).pairs
  distinct := List.nodup_cons.2 ⟨by simp [erase], (b.erase name).distinct⟩

/-! ## Lemmas -/

@[simp] theorem get?_empty (name : String) : (empty : Bindings α).get? name = none := rfl

theorem lookup_filter (pairs : List (String × α)) (name other : String) :
    (pairs.filter (·.1 != name)).lookup other =
      if name = other then none else pairs.lookup other := by
  induction pairs with
  | nil => simp
  | cons pair rest ih =>
    obtain ⟨key, a⟩ := pair
    by_cases removed : key = name
    · subst removed
      rw [List.filter_cons_of_neg (by simp), ih]
      by_cases same : key = other
      · rw [if_pos same, if_pos same]
      · rw [if_neg same, if_neg same, List.lookup_cons, beq_false_of_ne (Ne.symm same)]
    · rw [List.filter_cons_of_pos (by simpa using removed), List.lookup_cons, List.lookup_cons, ih]
      by_cases same : other = key
      · subst same
        simp [Ne.symm removed]
      · rw [beq_false_of_ne same]

theorem get?_erase (b : Bindings α) (name other : String) :
    (b.erase name).get? other = if name = other then none else b.get? other :=
  lookup_filter b.pairs name other

theorem get?_set (b : Bindings α) (name other : String) (a : α) :
    (b.set name a).get? other = if name = other then some a else b.get? other := by
  rw [get?, set, List.lookup_cons]
  by_cases same : other = name
  · rw [beq_iff_eq.2 same, if_pos same.symm]
  · rw [beq_false_of_ne same, if_neg (Ne.symm same)]
    exact (get?_erase b name other).trans (if_neg (Ne.symm same))

end Bindings

end Gremlin
