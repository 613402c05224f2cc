import RelocExpr.Proofs.Registration

/-!
# Histories of a symbol table

Whatever is done with a table, its names stay where they are and new ones come last.
Every name is in upper case and occurs once.  An unknown symbol may become external,
and only a definition of a name gives it an address or another one.

Evaluating or linking an expression, with or without success, comes to mentioning some
of its symbols.  So the steps of a history are of four kinds only: some symbols are
mentioned, a name is defined, the module is changed, or the location is.
-/

namespace RelocExpr

/-! ## What evaluating and linking mention -/

/-- An evaluation mentions symbols of the expression, whatever it comes to. -/
theorem Expression.evaluate_mentionsAmong (expression : Expression) (mode : EvaluationMode)
    (table : SymbolTable) :
    SymbolTable.MentionsAmong expression.parts table (expression.evaluate mode table).2 := by
  cases mode with
  | strict =>
      refine ⟨expression.symbolRefs, ?_, expression.evaluate_strict_snd table⟩
      intro ref member
      rcases List.mem_filterMap.1 member with ⟨part, partMember, isSymbol⟩
      cases part with
      | symbol other =>
          cases isSymbol
          exact partMember
      | _ => cases isSymbol
  | bestEffort => exact run_mentionsAmong rfl
  | lookahead =>
      rw [evaluate]
      split
      · exact .refl ..
      · exact run_mentionsAmong rfl

theorem linkParts_mentionsAmong {source : String} {parts : List Part}
    {stack : List LinkOperand} {table mentioned : SymbolTable}
    {outcome : Except Fault (List LinkOperand)}
    (links : linkParts source parts stack table = (outcome, mentioned)) :
    SymbolTable.MentionsAmong parts table mentioned := by
  have tail {rest : List Part} {earlier : SymbolTable} (part : Part)
      (mentions : SymbolTable.MentionsAmong rest earlier mentioned) :
      SymbolTable.MentionsAmong (part :: rest) earlier mentioned :=
    mentions.mono fun _ member => List.mem_cons_of_mem part member
  fun_induction linkParts source parts stack table with
  | case1 | case7 | case9 | case10 =>
      cases links
      exact .refl ..
  | case2 address rest stack table ih => exact tail _ (ih links)
  | case3 ref rest stack table address middle found ih
  | case4 ref rest stack table middle found ih =>
      have first := SymbolTable.find?_mentionsAmong found (@List.mem_cons_self _ _ rest)
      exact first.trans (tail _ (ih links))
  | case5 ref rest stack table middle found
  | case6 ref rest stack table middle found =>
      cases links
      exact SymbolTable.find?_mentionsAmong found (List.mem_cons_self ..)
  | case8 operator rest stack table result linked ih => exact tail _ (ih links)

/-- Linking mentions symbols of the expression, whatever it comes to. -/
theorem Expression.linkItems_mentionsAmong (expression : Expression) (table : SymbolTable) :
    SymbolTable.MentionsAmong expression.parts table (expression.linkItems table).2 := by
  rw [linkItems]
  split
  · exact .refl ..
  · split
    · next folds => exact foldTypes_mentionsAmong folds
    · next folds =>
        have first := foldTypes_mentionsAmong folds
        have among (ref : SymbolRef) := @symbol_mem_of_foldTypes _ _ _ _ _ _ ref folds
        split
        · next stopped => exact first.trans ((linkParts_mentionsAmong stopped).mono among)
        · next linked => exact first.trans ((linkParts_mentionsAmong linked).mono among)

/-! ## Steps -/

/-- What can be done with a table. -/
inductive TableStep where
  | define (name : String) (address : Address)
  | declareExternal (name : String)
  | setModule (name : Option String)
  | setLocation (address : Address)
  | mention (ref : SymbolRef)
  | evaluate (expression : Expression) (mode : EvaluationMode)
  | link (expression : Expression)

namespace SymbolTable

/-- The table after a step, whatever the step comes to. -/
def perform (table : SymbolTable) : TableStep → SymbolTable
  | .define name address => table.define name address
  | .declareExternal name => table.declareExternal name
  | .setModule name => table.setModule name
  | .setLocation address => table.setLocation address
  | .mention ref => table.mention ref
  | .evaluate expression mode => (expression.evaluate mode table).2
  | .link expression => (expression.linkItems table).2

/-- The table after several steps. -/
def performAll (table : SymbolTable) (steps : List TableStep) : SymbolTable :=
  steps.foldl perform table

/-- Declaring a name external is mentioning it with the mark. -/
theorem declareExternal_eq_mention (table : SymbolTable) (name : String) :
    table.declareExternal name = table.mention { name, external := true, root := false } := by
  rcases table with ⟨entries, _ | moduleName, location⟩ <;> rfl

/-- A step mentions symbols, or it defines a name or changes the module or the location. -/
theorem perform_cases (table : SymbolTable) (step : TableStep) :
    (∃ refs, table.perform step = table.mentionAll refs) ∨
      (∃ name address, step = .define name address) ∨
      (∃ name, step = .setModule name) ∨ ∃ address, step = .setLocation address := by
  cases step with
  | define name address => exact .inr (.inl ⟨name, address, rfl⟩)
  | setModule name => exact .inr (.inr (.inl ⟨name, rfl⟩))
  | setLocation address => exact .inr (.inr (.inr ⟨address, rfl⟩))
  | declareExternal name => exact .inl ⟨[_], table.declareExternal_eq_mention name⟩
  | mention ref => exact .inl ⟨[ref], rfl⟩
  | evaluate expression mode =>
      rcases expression.evaluate_mentionsAmong mode table with ⟨refs, -, mentions⟩
      exact .inl ⟨refs, mentions⟩
  | link expression =>
      rcases expression.linkItems_mentionsAmong table with ⟨refs, -, mentions⟩
      exact .inl ⟨refs, mentions⟩

/-! ## Names -/

theorem names_prefix_put (fresh : SymbolValue) (change : SymbolValue → SymbolValue)
    (name : String) (entries : List (String × SymbolValue)) :
    entries.map Prod.fst <+: (put fresh change name entries).map Prod.fst := by
  rw [map_fst_put]
  split
  · exact List.prefix_rfl
  · exact List.prefix_append ..

/-- The names and the module are in upper case, and every name occurs once. -/
structure WellNamed (table : SymbolTable) : Prop where
  upper : ∀ name ∈ table.names, Text.upper name = name
  unique : table.names.Nodup
  moduleUpper : ∀ moduleName, table.moduleName = some moduleName →
    Text.upper moduleName = moduleName

namespace WellNamed

variable {table : SymbolTable}

theorem upper_qualifiedName (wellNamed : table.WellNamed) (ref : SymbolRef) :
    Text.upper (table.qualifiedName ref) = table.qualifiedName ref := by
  rw [qualifiedName]
  cases found : table.moduleName with
  | none => exact Text.upper_upper ref.name
  | some moduleName =>
      have moduleUpper := wellNamed.moduleUpper moduleName found
      simp only
      split
      · exact Text.upper_upper ref.name
      · rw [Text.upper_append, Text.upper_append, moduleUpper, Text.upper_upper]
        rfl

/-- The value of a qualified name may be changed, and it may be entered. -/
theorem put (wellNamed : table.WellNamed) (ref : SymbolRef) (fresh : SymbolValue)
    (change : SymbolValue → SymbolValue) :
    WellNamed
      { table with
        entries := SymbolTable.put fresh change (table.qualifiedName ref) table.entries } := by
  have namesAfter := map_fst_put fresh change (table.qualifiedName ref) table.entries
  split at namesAfter
  · constructor
    · rw [names, namesAfter]
      exact wellNamed.upper
    · rw [names, namesAfter]
      exact wellNamed.unique
    · exact wellNamed.moduleUpper
  · next absent =>
      constructor
      · intro name member
        rw [names, namesAfter] at member
        rcases List.mem_append.1 member with old | new
        · exact wellNamed.upper name old
        · rw [List.mem_singleton.1 new]
          exact wellNamed.upper_qualifiedName ref
      · rw [names, namesAfter]
        refine List.nodup_append.2 ⟨wellNamed.unique, by simp, ?_⟩
        intro old member new single
        rw [List.mem_singleton.1 single]
        rintro rfl
        exact absent member
      · exact wellNamed.moduleUpper

theorem mentionAll (wellNamed : table.WellNamed) (refs : List SymbolRef) :
    (table.mentionAll refs).WellNamed := by
  induction refs generalizing table with
  | nil => exact wellNamed
  | cons ref rest ih => exact ih (wellNamed.put ref _ _)

theorem setModule (wellNamed : table.WellNamed) (name : Option String) :
    (table.setModule name).WellNamed where
  upper := wellNamed.upper
  unique := wellNamed.unique
  moduleUpper moduleName found := by
    rcases Option.map_eq_some_iff.1 found with ⟨written, -, rfl⟩
    exact Text.upper_upper written

theorem perform (wellNamed : table.WellNamed) (step : TableStep) :
    (table.perform step).WellNamed := by
  rcases table.perform_cases step with
    ⟨refs, mentions⟩ | ⟨name, address, rfl⟩ | ⟨name, rfl⟩ | ⟨address, rfl⟩
  · rw [mentions]
    exact wellNamed.mentionAll refs
  · exact wellNamed.put _ _ _
  · exact wellNamed.setModule name
  · exact ⟨wellNamed.upper, wellNamed.unique, wellNamed.moduleUpper⟩

theorem performAll (wellNamed : table.WellNamed) (steps : List TableStep) :
    (table.performAll steps).WellNamed := by
  induction steps generalizing table with
  | nil => exact wellNamed
  | cons step rest ih => exact ih (wellNamed.perform step)

end WellNamed

end SymbolTable

/-! ## Values -/

/-- How the value of a name may change. -/
inductive SymbolValue.Grows : SymbolValue → SymbolValue → Prop where
  | external : Grows .unknown .external
  | known {value : SymbolValue} {address : Address} :
      value ≠ .known address → Grows value (.known address)

namespace SymbolTable

/-- What a step may change: names are added at the end, values grow, and only the step
that is meant to do so gives a name an address or changes the module or the location. -/
structure Advances (table : SymbolTable) (step : TableStep) (later : SymbolTable) : Prop where
  names : table.names <+: later.names
  values : ∀ name value changed, table.entries.lookup name = some value →
    later.entries.lookup name = some changed → changed ≠ value → value.Grows changed
  defines : ∀ name address, later.entries.lookup name = some (.known address) →
    table.entries.lookup name ≠ some (.known address) →
      ∃ written, step = .define written address ∧
        table.qualifiedName { name := written, external := false, root := false } = name
  moduleName : later.moduleName ≠ table.moduleName → ∃ name, step = .setModule name
  location : later.location ≠ table.location → ∃ address, step = .setLocation address

theorem advances_mentionAll (table : SymbolTable) (step : TableStep)
    (refs : List SymbolRef) : table.Advances step (table.mentionAll refs) where
  names := by
    rw [names_mentionAll]
    exact List.prefix_append ..
  values name value changed found later differs := by
    rw [lookup_mentionAll, valueAfter?, found] at later
    cases later
    by_cases marked : table.Marks refs name
    · rw [if_pos marked] at differs ⊢
      cases value with
      | unknown => exact .external
      | known | external => exact absurd rfl differs
    · rw [if_neg marked] at differs
      exact absurd rfl differs
  defines name address known before := by
    rw [lookup_mentionAll, valueAfter?] at known
    cases found : table.entries.lookup name with
    | none => simp [found, SymbolValue.fresh, ite_eq_iff] at known
    | some value =>
        rw [found] at before known
        cases value <;> simp_all [SymbolValue.markExternal, ite_eq_iff]
  moduleName differs := absurd (table.moduleName_mentionAll refs) differs
  location differs := absurd (table.location_mentionAll refs) differs

theorem advances_define (table : SymbolTable) (written : String) (address : Address) :
    table.Advances (.define written address) (table.define written address) := by
  have defined (name : String) :
      (table.define written address).entries.lookup name =
        if name = table.qualifiedName { name := written, external := false, root := false } then
          some (.known address)
        else table.entries.lookup name := by
    rw [define, lookup_put]
    cases table.entries.lookup
      (table.qualifiedName { name := written, external := false, root := false }) <;> rfl
  constructor
  · exact names_prefix_put ..
  · intro name value changed found later differs
    rw [defined] at later
    split at later
    · cases later
      exact .known (Ne.symm differs)
    · rw [found] at later
      exact absurd (Option.some.inj later).symm differs
  · intro name other known before
    rw [defined] at known
    split at known
    · next here =>
        cases known
        exact ⟨written, rfl, here.symm⟩
    · exact absurd known before
  · intro differs
    exact absurd rfl differs
  · intro differs
    exact absurd rfl differs

/-- A step that keeps the entries of a table advances it. -/
theorem advances_of_entries_eq {table later : SymbolTable} {step : TableStep}
    (same : later.entries = table.entries)
    (moduleName : later.moduleName ≠ table.moduleName → ∃ name, step = .setModule name)
    (location : later.location ≠ table.location → ∃ address, step = .setLocation address) :
    table.Advances step later where
  names := by
    refine ⟨[], ?_⟩
    rw [List.append_nil, names, names, same]
  values name value changed found later differs := by
    rw [same, found] at later
    exact absurd (Option.some.inj later).symm differs
  defines name address known before := by
    rw [same] at known
    exact absurd known before
  moduleName
  location

/-- Every step advances the table. -/
theorem advances_perform (table : SymbolTable) (step : TableStep) :
    table.Advances step (table.perform step) := by
  rcases table.perform_cases step with
    ⟨refs, mentions⟩ | ⟨name, address, rfl⟩ | ⟨name, rfl⟩ | ⟨address, rfl⟩
  · rw [mentions]
    exact table.advances_mentionAll step refs
  · exact table.advances_define name address
  · exact advances_of_entries_eq rfl (fun _ => ⟨name, rfl⟩) (absurd rfl)
  · exact advances_of_entries_eq rfl (absurd rfl) fun _ => ⟨address, rfl⟩

/-- After any steps on an empty table every name is in upper case and occurs once, and
whatever the next step is, it keeps the names and their order, changes values only from
unknown to external and to an address, gives an address only to the name that it defines,
and changes the module or the location only if it is meant to. -/
theorem wellNamed_and_advances_of_performAll (steps : List TableStep) :
    let table := ({} : SymbolTable).performAll steps
    table.WellNamed ∧ ∀ step, table.Advances step (table.perform step) := by
  intro table
  have empty : ({} : SymbolTable).WellNamed := ⟨nofun, List.nodup_nil, nofun⟩
  exact ⟨empty.performAll steps, table.advances_perform⟩

end SymbolTable

/-! ## Tables of sessions -/

namespace Session

/-- A step of a session comes to at most one step of its table. -/
theorem exists_performAll_of_step (session : Session) (step : Step) :
    ∃ steps, (session.step step).2.table = session.table.performAll steps := by
  cases step with
  | define name address => exact ⟨[.define name address], rfl⟩
  | declareExternal name => exact ⟨[.declareExternal name], rfl⟩
  | setModule name => exact ⟨[.setModule name], rfl⟩
  | setLocation address => exact ⟨[.setLocation address], rfl⟩
  | resolve ref => exact ⟨[.mention ref], rfl⟩
  | evaluate slot mode => exact ⟨[.evaluate (session.slot slot) mode], rfl⟩
  | link slot => exact ⟨[.link (session.slot slot)], rfl⟩
  | parse slot text data isByte =>
      refine ⟨[], ?_⟩
      rw [Session.step]
      split <;> rfl
  | read slot text data isByte =>
      refine ⟨[], ?_⟩
      simp only [Session.step]
      split <;> rfl
  | setRadix base =>
      refine ⟨[], ?_⟩
      rw [Session.step]
      split <;> rfl
  -- The other steps leave the table alone.
  | _ => exact ⟨[], rfl⟩

/-- In every session the names of the table are in upper case and occur once. -/
theorem wellNamed_table_steps {session : Session} (wellNamed : session.table.WellNamed)
    (history : List Step) : (session.steps history).2.table.WellNamed := by
  induction history generalizing session with
  | nil => exact wellNamed
  | cons step rest ih =>
      rcases session.exists_performAll_of_step step with ⟨steps, performed⟩
      have next : (session.step step).2.table.WellNamed := by
        rw [performed]
        exact wellNamed.performAll steps
      exact ih next

end Session

end RelocExpr
