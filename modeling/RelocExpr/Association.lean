/-!
# Association lists

Tables are lists of keys with their values, in the order in which they were
entered.  The first entry of a key counts.
-/

namespace RelocExpr.Association

universe u v

variable {Key : Type u} {Value : Type v} [DecidableEq Key]

theorem lookup_cons_eq_ite (key first : Key) (value : Value)
    (rest : List (Key × Value)) :
    ((first, value) :: rest).lookup key =
      if key = first then some value else rest.lookup key := by
  by_cases same : key = first
  · simp [same]
  · rw [List.lookup_cons, beq_eq_false_iff_ne.2 same, if_neg same]

/-- Leaving out the entries of one key does not matter to another. -/
theorem lookup_filter_ne {key other : Key} (differs : key ≠ other)
    (entries : List (Key × Value)) :
    (entries.filter fun entry => entry.1 ≠ other).lookup key =
      entries.lookup key := by
  induction entries with
  | nil => rfl
  | cons entry rest ih =>
      obtain ⟨first, value⟩ := entry
      by_cases head : first = other
      · subst head
        rw [lookup_cons_eq_ite, if_neg differs, ← ih]
        simp
      · rw [lookup_cons_eq_ite, ← ih, ← lookup_cons_eq_ite]
        simp [head]

end RelocExpr.Association
