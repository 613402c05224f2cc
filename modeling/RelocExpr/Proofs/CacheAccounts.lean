import Mathlib.Data.Finset.Card
import Mathlib.Data.List.DropRight
import RelocExpr.Proofs.Caching

/-!
# What the counts of the cache say

A run is reset when it begins, when it is restarted, and when another radix is chosen.  The
cache accounts for the calls since then: it was asked for every text that was to be read, and
it has those of them that could be read and have no `$`, each text once for either use of its
strings.  A text is found exactly if it is one of these, whatever its size and with whatever
table it is read.

One call keeps the accounts right, and so they are right after any calls.
-/

namespace RelocExpr

/-! ## Keys in the cache -/

namespace ExpressionCache

variable {cache : ExpressionCache} {key : CacheKey}

/-- The keys of the expressions in the cache. -/
def keys (cache : ExpressionCache) : List CacheKey := cache.entries.map Prod.fst

theorem find?_eq_none_iff : cache.find? key = none ↔ key ∉ cache.keys := by
  rw [find?, keys, List.lookup_eq_none_iff, List.mem_map]
  constructor
  · rintro other ⟨entry, member, same⟩
    exact absurd same.symm (by simpa using other entry member)
  · intro absent entry member
    exact bne_iff_ne.2 fun same => absent ⟨entry, member, same.symm⟩

theorem get_of_mem (member : key ∈ cache.keys) :
    ∃ expression, cache.get key = (some expression, { cache with hits := cache.hits + 1 }) := by
  rw [get]
  cases found : cache.find? key with
  | none => exact absurd member (find?_eq_none_iff.1 found)
  | some expression => exact ⟨expression, rfl⟩

theorem get_of_not_mem (absent : key ∉ cache.keys) :
    cache.get key = (none, { cache with misses := cache.misses + 1 }) := by
  rw [get, find?_eq_none_iff.2 absent]

/-- A new key comes before the others, if its text may be kept. -/
theorem keys_insert (cache : ExpressionCache) (absent : key ∉ cache.keys)
    (expression : Expression) :
    (cache.insert key expression).2.keys =
      if key.isFixed then key :: cache.keys else cache.keys := by
  have others : cache.entries.filter (fun entry => entry.1 ≠ key) = cache.entries := by
    rw [List.filter_eq_self]
    intro entry member
    exact decide_eq_true fun same => absent (List.mem_map.2 ⟨entry, member, same⟩)
  rw [insert, others]
  split
  · rfl
  · rfl

/-- Only questions are counted. -/
theorem counts_insert (cache : ExpressionCache) (key : CacheKey) (expression : Expression) :
    (cache.insert key expression).2.hits = cache.hits ∧
      (cache.insert key expression).2.misses = cache.misses := by
  rw [insert]
  split
  · exact ⟨rfl, rfl⟩
  · exact ⟨rfl, rfl⟩

end ExpressionCache

/-! ## Calls since the last reset -/

/-- A call, and the settings of the run by then. -/
structure MadeCall where
  settings : Settings
  call : AssemblyCall

namespace MadeCall

/-- A text was to be read. -/
def asks (made : MadeCall) : Bool :=
  match made.call with
  | .parse .. => true
  | .restart | .setRadix _ => false

/-- Another run begins, or numbers are in another radix from then on. -/
def resets (made : MadeCall) : Bool :=
  match made.call with
  | .parse .. => false
  | .restart => true
  | .setRadix base =>
      match Radix.ofNat base with
      | .ok radix => radix ≠ made.settings.radix
      | .error _ => false

/-- The key of the text, if it could be read and has no `$`. -/
def readKey? (made : MadeCall) : Option CacheKey :=
  match made.call with
  | .parse table text data isByte =>
      let reading : Reading := { settings := made.settings, location := table.location, data }
      match Expression.compile reading isByte text with
      | .ok _ => if '$' ∈ text.toList then none else some { text, data }
      | .error _ => none
  | .restart | .setRadix _ => none

/-- The key is that of the text. -/
theorem eq_of_readKey? {settings : Settings} {table : SymbolTable} {text : String}
    {data isByte : Bool} {key : CacheKey}
    (read : readKey? ⟨settings, .parse table text data isByte⟩ = some key) :
    key = { text, data } := by
  rw [readKey?] at read
  dsimp only at read
  split at read
  · split at read
    · contradiction
    · exact (Option.some.inj read).symm
  · contradiction

/-- The keys of the texts that were read, when one more call was made. -/
theorem mem_filterMap_readKey?_concat {since : List MadeCall} {made : MadeCall}
    {key : CacheKey} :
    key ∈ (since ++ [made]).filterMap readKey? ↔
      key ∈ since.filterMap readKey? ∨ made.readKey? = some key := by
  simp [List.filterMap_append]

end MadeCall

/-- The calls to a run that begins with the settings. -/
def madeCalls (settings : Settings) : List AssemblyCall → List MadeCall
  | [] => []
  | call :: rest => { settings, call } :: madeCalls (settings.after call) rest

theorem madeCalls_concat (settings : Settings) (calls : List AssemblyCall)
    (call : AssemblyCall) :
    madeCalls settings (calls ++ [call]) =
      madeCalls settings calls ++ [{ settings := calls.foldl Settings.after settings, call }] := by
  induction calls generalizing settings with
  | nil => rfl
  | cons first rest ih =>
      rw [List.cons_append, madeCalls, ih, madeCalls, List.cons_append, List.foldl_cons]

/-- The last calls, as far back as none of them resets the run. -/
def callsSinceReset (settings : Settings) (calls : List AssemblyCall) : List MadeCall :=
  (madeCalls settings calls).rtakeWhile fun made => !made.resets

theorem callsSinceReset_concat (settings : Settings) (calls : List AssemblyCall)
    (call : AssemblyCall) :
    let made : MadeCall := ⟨calls.foldl Settings.after settings, call⟩
    callsSinceReset settings (calls ++ [call]) =
      if made.resets then [] else callsSinceReset settings calls ++ [made] := by
  intro made
  rw [callsSinceReset, madeCalls_concat]
  cases resets : made.resets with
  | true => exact List.rtakeWhile_concat_neg _ _ _ (by simp [made, resets])
  | false => exact List.rtakeWhile_concat_pos _ _ _ (by simp [made, resets])

/-! ## Accounts -/

namespace AssemblyRun

variable {run : AssemblyRun} {since : List MadeCall}

/-- The cache has the keys of the texts that were read, each once, and was asked for all that
were to be read. -/
structure Accounts (run : AssemblyRun) (since : List MadeCall) : Prop where
  nodup : run.cache.keys.Nodup
  mem_keys : ∀ key, key ∈ run.cache.keys ↔ key ∈ since.filterMap MadeCall.readKey?
  asked : run.cache.hits + run.cache.misses = since.countP MadeCall.asks

theorem accounts_of_empty (settings : Settings) : Accounts { settings } [] where
  nodup := .nil
  mem_keys _ := .rfl
  asked := rfl

section

variable {table : SymbolTable} {text : String} {data isByte : Bool}

/-- A text that is in the cache is a hit and nothing else. -/
theorem cache_parse_of_mem (member : { text, data } ∈ run.cache.keys) :
    (run.parse table.location text data isByte).2.cache =
      { run.cache with hits := run.cache.hits + 1 } := by
  obtain ⟨expression, asked⟩ := ExpressionCache.get_of_mem member
  simp only [parse, asked]

/-- A text that is not in the cache is a miss. -/
theorem counts_parse_of_not_mem (absent : { text, data } ∉ run.cache.keys) :
    (run.parse table.location text data isByte).2.cache.hits = run.cache.hits ∧
      (run.parse table.location text data isByte).2.cache.misses = run.cache.misses + 1 := by
  simp only [parse, ExpressionCache.get_of_not_mem absent]
  split
  · exact ⟨rfl, rfl⟩
  · exact ExpressionCache.counts_insert ..

/-- It comes into the cache if it can be read and has no `$`. -/
theorem keys_parse_of_not_mem (absent : { text, data } ∉ run.cache.keys) :
    (run.parse table.location text data isByte).2.cache.keys =
      (MadeCall.readKey? ⟨run.settings, .parse table text data isByte⟩).toList ++
        run.cache.keys := by
  simp only [parse, ExpressionCache.get_of_not_mem absent, MadeCall.readKey?, reading]
  cases Expression.compile _ isByte text with
  | error => rfl
  | ok expression =>
      let asked := { run.cache with misses := run.cache.misses + 1 }
      refine (asked.keys_insert absent expression).trans ?_
      rw [CacheKey.isFixed]
      by_cases located : '$' ∈ text.toList
      · simp [located, asked, ExpressionCache.keys]
      · simp [located, asked, ExpressionCache.keys]

end

/-- Whatever comes of a text, its key is on the account exactly if it was before, or if the
text could be read and has no `$`. -/
theorem mem_keys_parse_iff (run : AssemblyRun) (table : SymbolTable) (text : String)
    (data isByte : Bool) (key : CacheKey) :
    key ∈ (run.parse table.location text data isByte).2.cache.keys ↔
      key ∈ run.cache.keys ∨
        MadeCall.readKey? ⟨run.settings, .parse table text data isByte⟩ = some key := by
  by_cases member : { text, data } ∈ run.cache.keys
  · rw [cache_parse_of_mem member]
    refine (or_iff_left_of_imp ?_).symm
    intro read
    rw [MadeCall.eq_of_readKey? read]
    exact member
  · rw [keys_parse_of_not_mem member, List.mem_append, Option.mem_toList, or_comm]

/-- To read a text puts it on the account. -/
theorem Accounts.parse (accounts : run.Accounts since) (table : SymbolTable) (text : String)
    (data isByte : Bool) :
    Accounts (run.parse table.location text data isByte).2
      (since ++ [⟨run.settings, .parse table text data isByte⟩]) where
  nodup := by
    by_cases member : { text, data } ∈ run.cache.keys
    · rw [cache_parse_of_mem member]
      exact accounts.nodup
    · rw [keys_parse_of_not_mem member]
      cases read : MadeCall.readKey? ⟨run.settings, .parse table text data isByte⟩ with
      | none => exact accounts.nodup
      | some key =>
          rw [MadeCall.eq_of_readKey? read]
          exact accounts.nodup.cons member
  mem_keys key := by
    rw [mem_keys_parse_iff, accounts.mem_keys, MadeCall.mem_filterMap_readKey?_concat]
  asked := by
    rw [List.countP_append, ← accounts.asked]
    by_cases member : { text, data } ∈ run.cache.keys
    · rw [cache_parse_of_mem member]
      exact Nat.add_right_comm ..
    · obtain ⟨hits, misses⟩ := counts_parse_of_not_mem member
      rw [hits, misses]
      exact (Nat.add_assoc ..).symm

/-- A radix is no text. -/
theorem Accounts.setRadix (accounts : run.Accounts since) (settings : Settings) (base : Nat) :
    run.Accounts (since ++ [⟨settings, .setRadix base⟩]) where
  nodup := accounts.nodup
  mem_keys key := by
    rw [accounts.mem_keys, MadeCall.mem_filterMap_readKey?_concat]
    exact (or_iff_left nofun).symm
  asked := by
    rw [accounts.asked, List.countP_append]
    rfl

/-- The run begins anew with another radix, and is left alone with any other base. -/
theorem perform_setRadix_cases (run : AssemblyRun) (base : Nat) :
    (MadeCall.resets ⟨run.settings, .setRadix base⟩ = true ∧
        ∃ settings, run.perform (.setRadix base) = { settings }) ∨
      MadeCall.resets ⟨run.settings, .setRadix base⟩ = false ∧
        run.perform (.setRadix base) = run := by
  simp only [MadeCall.resets, perform, setRadix]
  cases Radix.ofNat base with
  | error error => exact .inr ⟨rfl, rfl⟩
  | ok radix =>
      by_cases same : radix = run.settings.radix
      · refine .inr ⟨decide_eq_false (not_not_intro same), ?_⟩
        simp only [if_pos same]
      · refine .inl ⟨decide_eq_true same, { run.settings with radix }, ?_⟩
        simp only [if_neg same]
        rfl

/-- The accounts are right after one more call. -/
theorem Accounts.perform (accounts : run.Accounts since) (call : AssemblyCall) :
    let made : MadeCall := ⟨run.settings, call⟩
    (run.perform call).Accounts (if made.resets then [] else since ++ [made]) := by
  intro made
  cases call with
  | parse table text data isByte => exact accounts.parse table text data isByte
  | restart => exact accounts_of_empty run.settings
  | setRadix base =>
      rcases run.perform_setRadix_cases base with ⟨resets, settings, fresh⟩ | ⟨idle, same⟩
      · rw [fresh, if_pos resets]
        exact accounts_of_empty settings
      · rw [same, if_neg (Bool.eq_false_iff.1 idle)]
        exact accounts.setRadix run.settings base

/-- They are right after any calls to a run that was begun with an empty cache. -/
theorem accounts_after_calls (settings : Settings) (calls : List AssemblyCall) :
    (calls.foldl AssemblyRun.perform { settings }).Accounts (callsSinceReset settings calls) := by
  -- The last call is taken off, because it is the one that may forget all others.
  induction calls using List.reverseRecOn with
  | nil => exact accounts_of_empty settings
  | append_singleton calls call ih =>
      have later := ((coherent_of_empty settings).performAll calls).2
      have next := ih.perform call
      rw [later] at next
      rw [List.foldl_concat, callsSinceReset_concat]
      exact next

/-- After any calls, the hits and the misses of the cache are as many as the texts that were
to be read since the last reset, and it has as many entries as different ones among them
could be read and have no `$`.  The next text is a hit if it is one of these, and else a miss,
in either size and with every table. -/
theorem cache_after_calls (settings : Settings) (calls : List AssemblyCall) :
    let run := calls.foldl AssemblyRun.perform { settings }
    let since := callsSinceReset settings calls
    let known := (since.filterMap MadeCall.readKey?).toFinset
    run.cache.hits + run.cache.misses = since.countP MadeCall.asks ∧
      run.cache.size = known.card ∧
      ∀ (table : SymbolTable) text data isByte,
        let later := run.perform (.parse table text data isByte)
        later.cache.hits = run.cache.hits + (if { text, data } ∈ known then 1 else 0) ∧
          later.cache.misses = run.cache.misses + (if { text, data } ∈ known then 0 else 1) := by
  intro run since known
  have accounts : run.Accounts since := accounts_after_calls settings calls
  have same : run.cache.keys.toFinset = known := by
    ext key
    rw [List.mem_toFinset, List.mem_toFinset, accounts.mem_keys]
  refine ⟨accounts.asked, ?_, ?_⟩
  · rw [← same, List.toFinset_card_of_nodup accounts.nodup]
    exact (List.length_map _).symm
  · intro table text data isByte later
    have known_iff : { text, data } ∈ known ↔ { text, data } ∈ run.cache.keys := by
      rw [← same, List.mem_toFinset]
    by_cases member : { text, data } ∈ run.cache.keys
    · have counted : later.cache = _ := cache_parse_of_mem member
      rw [if_pos (known_iff.2 member), if_pos (known_iff.2 member), counted]
      exact ⟨rfl, rfl⟩
    · rw [if_neg (mt known_iff.1 member), if_neg (mt known_iff.1 member)]
      exact counts_parse_of_not_mem member

-- The radix is ten already, so the first text is still known when it is read as a byte.
example :
    let table : SymbolTable := {}
    let calls : List AssemblyCall :=
      [.parse table "8" false false, .setRadix 10, .parse table "8" false true,
        .parse table "$" false false, .parse table "$" false false, .parse table "(8" false false]
    let run := calls.foldl AssemblyRun.perform {}
    run.cache.size = 1 ∧ run.cache.hits = 1 ∧ run.cache.misses = 4 := by
  decide +kernel

end AssemblyRun

end RelocExpr
