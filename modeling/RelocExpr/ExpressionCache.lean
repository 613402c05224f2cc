import RelocExpr.Association
import RelocExpr.Expression

/-!
# The cache of expressions

The cache has expressions in postfix order by their text, and by whether string
literals are data.  A text with `$` in it is never kept, because its parts depend
on the current location.  Every question to the cache is counted.
-/

namespace RelocExpr

/-- What an expression is kept under. -/
structure CacheKey where
  /-- The text as it was given, with blanks at its ends. -/
  text : String
  /-- String literals are data. -/
  data : Bool
  deriving DecidableEq, Repr

/-- The text may be kept: its parts do not depend on the current location. -/
def CacheKey.isFixed (key : CacheKey) : Bool :=
  !key.text.toList.contains '$'

/-- Expressions in postfix order, and how often they were asked for. -/
structure ExpressionCache where
  entries : List (CacheKey × Expression) := []
  hits : Nat := 0
  misses : Nat := 0
  deriving DecidableEq, Repr, Inhabited

namespace ExpressionCache

def size (cache : ExpressionCache) : Nat := cache.entries.length

/-- The expression kept under a key. -/
def find? (cache : ExpressionCache) (key : CacheKey) : Option Expression :=
  cache.entries.lookup key

/-- The expression kept under a key; the question is counted. -/
def get (cache : ExpressionCache) (key : CacheKey) :
    Option Expression × ExpressionCache :=
  match cache.find? key with
  | some expression => (some expression, { cache with hits := cache.hits + 1 })
  | none => (none, { cache with misses := cache.misses + 1 })

/-- Keep an expression, if its text may be kept, and say whether it is. -/
def insert (cache : ExpressionCache) (key : CacheKey) (expression : Expression) :
    Bool × ExpressionCache :=
  if key.isFixed then
    let others := cache.entries.filter fun entry => entry.1 ≠ key
    (true, { cache with entries := (key, expression) :: others })
  else (false, cache)

/-- An expression is found under its key if it may be kept there, and nothing
else changes. -/
theorem find?_insert (cache : ExpressionCache) (key other : CacheKey)
    (expression : Expression) :
    (cache.insert key expression).2.find? other =
      if key.isFixed ∧ other = key then some expression
      else cache.find? other := by
  unfold insert find?
  by_cases fixed : key.isFixed
  · by_cases same : other = key
    · simp [fixed, same]
    · simp only [fixed, same, if_true, and_false, if_false]
      rw [Association.lookup_cons_eq_ite, if_neg same,
        Association.lookup_filter_ne same]
  · simp [fixed]

/-- Forget everything, the counts too. -/
def clear (_ : ExpressionCache) : ExpressionCache := {}

end ExpressionCache

end RelocExpr
