import RelocExpr.AssemblyRun
import RelocExpr.Proofs.Reading
import RelocExpr.SymbolTable

/-!
# Reading through the cache

A run that was begun with an empty cache reads every text as if there was no cache,
whatever was done with the run before.  This is so because every call keeps the
cache coherent: what it has of a text is how that text is read with the settings of
the run, at every location and in every size.
-/

namespace RelocExpr

/-! ## Questions to the cache -/

namespace ExpressionCache

theorem get_fst (cache : ExpressionCache) (key : CacheKey) :
    (cache.get key).1 = cache.find? key := by
  rw [get]
  cases cache.find? key <;> rfl

/-- A question changes only the counts. -/
theorem entries_get (cache : ExpressionCache) (key : CacheKey) :
    (cache.get key).2.entries = cache.entries := by
  rw [get]
  cases cache.find? key <;> rfl

theorem find?_get (cache : ExpressionCache) (key other : CacheKey) :
    (cache.get key).2.find? other = cache.find? other := by
  rw [find?, entries_get, find?]

end ExpressionCache

/-! ## Coherence -/

namespace AssemblyRun

variable {run : AssemblyRun} {location : Address} {text : String} {data isByte : Bool}

/-- What the cache has of a text is how that text is read. -/
def Coherent (run : AssemblyRun) : Prop :=
  ∀ key expression, run.cache.find? key = some expression →
    ∀ location isByte,
      Expression.compile (run.reading location key.data) isByte key.text =
        .ok (expression.withSize isByte)

theorem coherent_of_empty (settings : Settings) : Coherent { settings } := by
  intro key expression found
  cases found

theorem Coherent.restart (run : AssemblyRun) : run.restart.Coherent :=
  coherent_of_empty run.settings

/-- Entries that are not asked for in another way do not matter. -/
theorem Coherent.of_find?_eq {cache : ExpressionCache} (coherent : run.Coherent)
    (same : ∀ key, cache.find? key = run.cache.find? key) :
    Coherent { run with cache } := by
  intro key expression found
  rw [same] at found
  exact coherent key expression found

/-- An expression may be kept under a text without `$`. -/
theorem Coherent.insert {expression : Expression} (coherent : run.Coherent)
    (compiled : Expression.compile (run.reading location data) isByte text = .ok expression) :
    Coherent { run with cache := (run.cache.insert { text, data } expression).2 } := by
  intro key kept found otherLocation otherSize
  rw [ExpressionCache.find?_insert] at found
  split at found
  · next inserted =>
      rcases inserted with ⟨fixed, rfl⟩
      cases found
      have absent : '$' ∉ text.toList := by simpa [CacheKey.isFixed] using fixed
      have resized := Expression.compile_withSize (run.reading location data) isByte
        otherSize text
      rw [compiled] at resized
      rw [← Expression.compile_location absent otherLocation] at resized
      exact resized
  · exact coherent key kept found otherLocation otherSize

/-! ## Calls -/

/-- A call reads a text as if there was no cache. -/
theorem Coherent.parse_fst (coherent : run.Coherent) :
    (run.parse location text data isByte).1 =
      Expression.compile (run.reading location data) isByte text := by
  have looked := run.cache.get_fst { text, data }
  rw [parse]
  split
  · next expression cache asked =>
      rw [asked] at looked
      exact (coherent { text, data } expression looked.symm location isByte).symm
  · split
    · next failed => exact failed.symm
    · next compiled => exact compiled.symm

theorem Coherent.parse_snd (coherent : run.Coherent) :
    (run.parse location text data isByte).2.Coherent := by
  have same := run.cache.find?_get { text, data }
  rw [parse]
  split
  · next asked =>
      rw [asked] at same
      exact coherent.of_find?_eq same
  · next asked =>
      rw [asked] at same
      have counted := coherent.of_find?_eq same
      split
      · exact counted
      · next compiled => exact counted.insert compiled

/-- A text that can not be read is not kept. -/
theorem entries_parse_of_error {error : ExpressionError}
    (failed : (run.parse location text data isByte).1 = .error error) :
    (run.parse location text data isByte).2.cache.entries = run.cache.entries := by
  have same := run.cache.entries_get { text, data }
  rw [parse] at failed ⊢
  split at failed
  · cases failed
  · next asked =>
      rw [asked] at same
      split at failed
      · exact same
      · cases failed

theorem settings_parse : (run.parse location text data isByte).2.settings = run.settings := by
  rw [parse]
  split
  · rfl
  · split <;> rfl

end AssemblyRun

/-- What may be done with a run.  A text is read with a table, which may be another
one each time. -/
inductive AssemblyCall where
  | parse (table : SymbolTable) (text : String) (data isByte : Bool)
  | restart
  | setRadix (base : Nat)

/-- The settings after a call.  Only another radix changes them. -/
def Settings.after (settings : Settings) : AssemblyCall → Settings
  | .parse .. | .restart => settings
  | .setRadix base =>
      match Radix.ofNat base with
      | .ok radix => { settings with radix }
      | .error _ => settings

namespace AssemblyRun

/-- The run after a call. -/
def perform (run : AssemblyRun) : AssemblyCall → AssemblyRun
  | .parse table text data isByte => (run.parse table.location text data isByte).2
  | .restart => run.restart
  | .setRadix base =>
      match run.setRadix base with
      | .ok changed => changed
      | .error _ => run

theorem perform_of_setRadix_error {run : AssemblyRun} {base : Nat} {error : SettingsError}
    (failed : run.setRadix base = .error error) : run.perform (.setRadix base) = run := by
  simp only [perform, failed]

theorem settings_perform (run : AssemblyRun) (call : AssemblyCall) :
    (run.perform call).settings = run.settings.after call := by
  cases call with
  | parse table text data isByte => exact settings_parse
  | restart => rfl
  | setRadix base =>
      rw [perform, setRadix, Settings.after]
      cases Radix.ofNat base with
      | error error => rfl
      | ok radix =>
          by_cases same : radix = run.settings.radix
          · subst same
            simp only [if_true]
          · simp only [if_neg same]

theorem Coherent.perform {run : AssemblyRun} (coherent : run.Coherent) (call : AssemblyCall) :
    (run.perform call).Coherent := by
  cases call with
  | parse table text data isByte => exact coherent.parse_snd
  | restart => exact .restart run
  | setRadix base =>
      rw [AssemblyRun.perform, setRadix]
      cases Radix.ofNat base with
      | error error => exact coherent
      | ok radix =>
          by_cases same : radix = run.settings.radix
          · simp only [if_pos same]
            exact coherent
          · simp only [if_neg same]
            exact coherent_of_empty _

/-- The calls keep a run coherent, and change its settings as if there was no cache. -/
theorem Coherent.performAll {run : AssemblyRun} (coherent : run.Coherent)
    (calls : List AssemblyCall) :
    (calls.foldl AssemblyRun.perform run).Coherent ∧
      (calls.foldl AssemblyRun.perform run).settings =
        calls.foldl Settings.after run.settings := by
  induction calls generalizing run with
  | nil => exact ⟨coherent, rfl⟩
  | cons call rest ih =>
      rcases ih (coherent.perform call) with ⟨later, settings⟩
      rw [settings_perform] at settings
      exact ⟨later, settings⟩

/-- After any calls a run reads a text as it is read with the settings by then and the
location of the table, without a cache.  A radix that is refused changes nothing, and
a text that can not be read brings no entry into the cache. -/
theorem parse_after_calls (settings : Settings) (calls : List AssemblyCall) :
    let run := calls.foldl perform { settings }
    run.settings = calls.foldl Settings.after settings ∧
      (∀ (table : SymbolTable) text data isByte,
        (run.parse table.location text data isByte).1 =
          Expression.compile { settings := run.settings, location := table.location, data }
            isByte text) ∧
      (∀ base error, run.setRadix base = .error error →
        run.perform (.setRadix base) = run) ∧
      ∀ (table : SymbolTable) text data isByte error,
        (run.parse table.location text data isByte).1 = .error error →
          (run.perform (.parse table text data isByte)).cache.entries =
            run.cache.entries := by
  intro run
  rcases (coherent_of_empty settings).performAll calls with ⟨coherent, later⟩
  refine ⟨later, ?_, ?_, ?_⟩
  · intro table text data isByte
    exact coherent.parse_fst
  · intro base error failed
    exact perform_of_setRadix_error failed
  · intro table text data isByte error failed
    exact entries_parse_of_error failed

end AssemblyRun

end RelocExpr
