import RelocExpr.Expression.Postfix
import RelocExpr.ExpressionCache

/-!
# Assembly runs

During one run the same texts are read again and again, so the run has a cache
beside its settings.  An expression from the cache is given the size that is
asked for, which is not part of its key.  Everything in the cache was read with
the current settings.
-/

namespace RelocExpr

/-- The settings and the cache of one assembly. -/
structure AssemblyRun where
  settings : Settings := {}
  cache : ExpressionCache := {}
  deriving DecidableEq, Repr, Inhabited

namespace AssemblyRun

/-- Begin another run with the same settings. -/
def restart (run : AssemblyRun) : AssemblyRun :=
  { run with cache := run.cache.clear }

/-- Choose the radix of numbers that do not name theirs.  Expressions that were
read in another radix are forgotten. -/
def setRadix (run : AssemblyRun) (base : Nat) : Except SettingsError AssemblyRun :=
  match Radix.ofNat base with
  | .error error => .error error
  | .ok radix =>
      if radix = run.settings.radix then .ok run
      else
        .ok { settings := { run.settings with radix }
              cache := run.cache.clear }

/-- How a text is read in this run. -/
def reading (run : AssemblyRun) (location : Address) (data : Bool) : Reading :=
  { settings := run.settings, location, data }

/-- The expression of a text in postfix order, from the cache if it is there.  A
text that can not be read or ordered is not kept. -/
def parse (run : AssemblyRun) (location : Address) (text : String)
    (data isByte : Bool) : Except ExpressionError Expression × AssemblyRun :=
  match run.cache.get { text, data } with
  | (some expression, cache) =>
      (.ok (expression.withSize isByte), { run with cache })
  | (none, cache) =>
      match Expression.compile (run.reading location data) isByte text with
      | .error error => (.error error, { run with cache })
      | .ok expression =>
          let (_, cache) := cache.insert { text, data } expression
          (.ok expression, { run with cache })

end AssemblyRun

end RelocExpr
