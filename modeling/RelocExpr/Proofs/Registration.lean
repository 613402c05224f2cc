import RelocExpr.Proofs.Defects
import RelocExpr.Proofs.Stability

/-!
# Registration of symbols

Mentioning symbols puts their new names at the end of a table, in the order in which
they first come.  A new or unknown symbol becomes external when some reference to its
name says so.  Nothing else in the table changes, and nothing at all when the same
symbols are mentioned again.

A strict evaluation mentions the symbols of an expression before anything else, and
what follows mentions no others.  Putting parts into postfix order keeps the order of
the symbols, so it is that of the text.
-/

namespace RelocExpr

theorem SymbolValue.markExternal_markExternal (value : SymbolValue) :
    value.markExternal.markExternal = value.markExternal := by
  cases value <;> rfl

/-! ## Tables after several symbols have been mentioned -/

namespace SymbolTable

variable {table later : SymbolTable} {refs rest : List SymbolRef} {ref : SymbolRef}
  {name : String}

/-- The names of a table in the order of their registration. -/
def names (table : SymbolTable) : List String :=
  table.entries.map Prod.fst

/-- The names of references that a table does not have, each where it first comes. -/
def newNames (table : SymbolTable) (refs : List SymbolRef) : List String :=
  ((refs.map table.qualifiedName).filter fun name => name ∉ table.names).eraseDups

/-- What is known of a name when the references have been mentioned. -/
def valueAfter? (table : SymbolTable) (refs : List SymbolRef) (name : String) :
    Option SymbolValue :=
  match table.entries.lookup name with
  | some value => some (if table.Marks refs name then value.markExternal else value)
  | none =>
      if name ∈ refs.map table.qualifiedName then some (.fresh (table.Marks refs name))
      else none

theorem lookup_mention (table : SymbolTable) (ref : SymbolRef) (name : String) :
    (table.mention ref).entries.lookup name =
      if name = table.qualifiedName ref then
        some ((table.entries.lookup (table.qualifiedName ref)).elim (.fresh ref.external)
          (if ref.external then SymbolValue.markExternal else id))
      else table.entries.lookup name :=
  lookup_put ..

theorem names_mention (table : SymbolTable) (ref : SymbolRef) :
    (table.mention ref).names =
      if table.qualifiedName ref ∈ table.names then table.names
      else table.names ++ [table.qualifiedName ref] :=
  map_fst_put ..

theorem names_mentionAll (table : SymbolTable) (refs : List SymbolRef) :
    (table.mentionAll refs).names = table.names ++ table.newNames refs := by
  induction refs generalizing table with
  | nil => simp [newNames]
  | cons ref rest ih =>
      have sameNames : rest.map (table.mention ref).qualifiedName =
          rest.map table.qualifiedName := rfl
      rw [mentionAll_cons, ih, newNames, newNames, names_mention, sameNames]
      by_cases present : table.qualifiedName ref ∈ table.names
      · simp [present]
      · simp [present, List.eraseDups_cons, List.filter_filter, Bool.and_comm, beq_eq_decide]

/-- To mention the first symbol and then the others is to mention all of them. -/
theorem valueAfter?_mention (table : SymbolTable) (ref : SymbolRef) (rest : List SymbolRef)
    (name : String) :
    (table.mention ref).valueAfter? rest name = table.valueAfter? (ref :: rest) name := by
  have sameNames : rest.map (table.mention ref).qualifiedName =
      rest.map table.qualifiedName := rfl
  simp only [valueAfter?, lookup_mention, marks_mention, marks_cons, sameNames]
  by_cases same : name = table.qualifiedName ref
  · subst same
    cases found : table.entries.lookup (table.qualifiedName ref) with
    | none => cases ref.external <;> simp [SymbolValue.fresh, SymbolValue.markExternal]
    | some value =>
        cases ref.external with
        | false => simp
        | true => simp [SymbolValue.markExternal_markExternal]
  · simp [same, Ne.symm same]

theorem lookup_mentionAll (table : SymbolTable) (refs : List SymbolRef) (name : String) :
    (table.mentionAll refs).entries.lookup name = table.valueAfter? refs name := by
  induction refs generalizing table with
  | nil =>
      simp only [mentionAll_nil, valueAfter?, Marks]
      cases table.entries.lookup name <;> simp
  | cons ref rest ih => rw [mentionAll_cons, ih, valueAfter?_mention]

@[simp] theorem location_mentionAll (table : SymbolTable) (refs : List SymbolRef) :
    (table.mentionAll refs).location = table.location := by
  induction refs generalizing table with
  | nil => rfl
  | cons ref rest ih => rw [mentionAll_cons, ih, location_mention]

/-! ## Symbols that are mentioned again -/

/-- What a reference would change about its name is changed already. -/
theorem exists_valueAfter?_of_mem (table : SymbolTable) (member : ref ∈ refs) :
    ∃ value, table.valueAfter? refs (table.qualifiedName ref) = some value ∧
      (if ref.external then SymbolValue.markExternal else id) value = value := by
  have mentioned : table.qualifiedName ref ∈ refs.map table.qualifiedName :=
    List.mem_map_of_mem member
  have marked (external : ref.external = true) :
      table.Marks refs (table.qualifiedName ref) := ⟨ref, member, rfl, external⟩
  rw [valueAfter?]
  cases external : ref.external with
  | false => cases table.entries.lookup (table.qualifiedName ref) <;> simp [mentioned]
  | true =>
      cases table.entries.lookup (table.qualifiedName ref) with
      | none => exact ⟨.external, by simp [mentioned, marked external, SymbolValue.fresh], rfl⟩
      | some value =>
          exact ⟨value.markExternal, by simp [marked external],
            value.markExternal_markExternal⟩

theorem covers_mentionAll (table : SymbolTable) (refs : List SymbolRef) :
    (table.mentionAll refs).Covers refs := by
  intro ref member
  have sameName : (table.mentionAll refs).qualifiedName ref = table.qualifiedName ref :=
    qualifiedName_of_moduleName (moduleName_mentionAll table refs) ref
  obtain ⟨value, known, same⟩ := table.exists_valueAfter?_of_mem member
  rw [← lookup_mentionAll] at known
  rw [mention, sameName, put_eq_self known same]

end SymbolTable

/-! ## Strict evaluation -/

namespace Expression

variable {expression : Expression} {table : SymbolTable}

/-- An evaluation changes nothing about a table that covers its symbols. -/
theorem run_snd_of_covers (covers : table.Covers expression.symbolRefs)
    (mode : EvaluationMode) : (expression.run mode table).2 = table := by
  have mentions : SymbolTable.MentionsAmong expression.parts table
      (expression.run mode table).2 := run_mentionsAmong rfl
  obtain ⟨refs, among, equal⟩ := mentions
  rw [equal]
  apply SymbolTable.Covers.mentionAll_eq
  intro ref member
  exact covers ref (List.mem_filterMap.2 ⟨_, among ref member, rfl⟩)

/-- Whatever comes of a strict evaluation, it mentions the symbols of the expression and
does nothing else to the table. -/
theorem evaluate_strict_snd (expression : Expression) (table : SymbolTable) :
    (expression.evaluate .strict table).2 = table.mentionAll expression.symbolRefs :=
  run_snd_of_covers (table.covers_mentionAll expression.symbolRefs) .strict

/-- A second strict evaluation comes to the same and leaves the table alone. -/
theorem evaluate_strict_again (expression : Expression) (table : SymbolTable) :
    expression.evaluate .strict (expression.evaluate .strict table).2 =
      expression.evaluate .strict table := by
  have covers := table.covers_mentionAll expression.symbolRefs
  rw [evaluate_strict_snd, evaluate, covers.mentionAll_eq]
  rfl

end Expression

/-! ## The order of the symbols -/

/-- A tree has its symbols in the order of the parts that it is read from. -/
theorem Reads.filterMap_symbol? {bound : Nat} {parts : List Part} {tree : Tree}
    (reads : Reads bound parts tree) : parts.filterMap Part.symbol? = tree.symbolRefs := by
  induction reads with
  | address bound value => rfl
  | symbol bound ref => rfl
  | group bound _ ih =>
      rw [List.filterMap_cons_none rfl, List.filterMap_append, ih]
      exact List.append_nil _
  | unary bound op _ ih =>
      rw [List.filterMap_cons_none rfl, ih]
      rfl
  | binary _ _ _ leftIH rightIH =>
      rw [List.filterMap_append, List.filterMap_cons_none rfl, leftIH, rightIH]
      rfl

@[simp] theorem symbol?_absorbString (part : Part) :
    (absorbString part).symbol? = part.symbol? := by
  cases part with
  | bytes content literal =>
      rw [absorbString]
      cases shortString? content <;> rfl
  | _ => rfl

/-- Putting parts into postfix order keeps the order of their symbols. -/
theorem filterMap_symbol?_of_orderParts {parts ordered : List Part}
    (accepted : orderParts parts = .ok ordered) :
    ordered.filterMap Part.symbol? = parts.filterMap Part.symbol? := by
  by_cases nonempty : parts = []
  · subst nonempty
    cases accepted
    rfl
  by_cases string : ∃ content literal, parts = [.bytes content literal]
  · obtain ⟨content, literal, rfl⟩ := string
    cases accepted
    rfl
  · have notString (content : List UInt8) (literal : String) :
        parts ≠ [.bytes content literal] := by
      intro single
      exact string ⟨content, literal, single⟩
    obtain ⟨tree, reads, rfl⟩ := postOrder_of_orderParts accepted nonempty notString
    rw [Tree.filterMap_symbol?_postOrder, reads.filterMap_symbol?]

namespace Expression

variable {raw ordered : Expression}

/-- The symbols of an expression are in the order of its text, also when its parts have
been put into postfix order. -/
theorem symbolRefs_of_toPostfix (unordered : raw.isPostfix = false)
    (noNul : .operator (.unary .nul) ∉ raw.parts)
    (accepted : raw.toPostfix = (.ok (), ordered)) : ordered.symbolRefs = raw.symbolRefs := by
  obtain ⟨parts, reordered, rfl⟩ := (toPostfix_eq_ok_iff unordered).1 accepted
  have sameSymbols : Part.symbol? ∘ absorbString = Part.symbol? := funext symbol?_absorbString
  rw [simplifyParts_of_noNul noNul] at reordered
  rw [symbolRefs, filterMap_symbol?_of_orderParts reordered, List.filterMap_map, sameSymbols,
    symbolRefs]

/-- Whatever comes of the strict evaluation of a text without `NUL`, it leaves the table
with the symbols of the text mentioned in their order.  New names come last, where they
are first mentioned, and are external if some reference says so.  References that say so
make unknown symbols external, and nothing else is changed.  To evaluate the expression
once more comes to the same and leaves the table alone. -/
theorem evaluate_registers {reading : Reading} {isByte : Bool} {text : String}
    (found : read reading isByte text = .ok raw)
    (noNul : .operator (.unary .nul) ∉ raw.parts)
    (accepted : raw.toPostfix = (.ok (), ordered)) (table : SymbolTable) :
    let refs := raw.symbolRefs
    let later := (ordered.evaluate .strict table).2
    later = table.mentionAll refs ∧
      later.names = table.names ++
        ((refs.map table.qualifiedName).filter fun name => name ∉ table.names).eraseDups ∧
      (∀ name, later.entries.lookup name =
        match table.entries.lookup name with
        | some .unknown => some (if table.Marks refs name then .external else .unknown)
        | some value => some value
        | none =>
            if name ∈ refs.map table.qualifiedName then
              some (if table.Marks refs name then .external else .unknown)
            else none) ∧
      later.moduleName = table.moduleName ∧ later.location = table.location ∧
      ordered.evaluate .strict later = ordered.evaluate .strict table := by
  intro refs later
  have sameRefs : ordered.symbolRefs = refs :=
    symbolRefs_of_toPostfix (isPostfix_of_read found) noNul accepted
  have mentioned : later = table.mentionAll refs := by
    rw [← sameRefs]
    exact ordered.evaluate_strict_snd table
  have again := ordered.evaluate_strict_again table
  refine ⟨mentioned, ?_, ?_, ?_, ?_, again⟩
  · rw [mentioned]
    exact table.names_mentionAll refs
  · intro name
    rw [mentioned, table.lookup_mentionAll, SymbolTable.valueAfter?]
    cases table.entries.lookup name with
    | none => simp [SymbolValue.fresh]
    | some value => cases value <;> simp [SymbolValue.markExternal]
  · rw [mentioned, table.moduleName_mentionAll]
  · rw [mentioned, table.location_mentionAll]

end Expression

/-- In `a + X## * b - x` inside the module `IO` only the marked reference is to the unknown
`X`, which becomes external.  `IO.A` and `IO.X` are new. -/
theorem evaluate_registers_of_marked_factor :
    let symbol (name : String) (external : Bool) : Part :=
      .symbol { name, external, root := false }
    let raw : Expression :=
      { source := "a + X## * b - x"
        parts := [symbol "a" false, .operator (.binary .plus), symbol "X" true,
          .operator (.binary .times), symbol "b" false, .operator (.binary .minus),
          symbol "x" false]
        isByte := false
        isPostfix := false }
    let table : SymbolTable :=
      { entries := [("X", .unknown), ("IO.B", .known ⟨.code, 3⟩)], moduleName := some "IO" }
    let evaluate := raw.toPostfix.2.evaluate .strict
    Expression.read {} false "a + X## * b - x" = .ok raw ∧
      (evaluate table).2.names = ["X", "IO.B", "IO.A", "IO.X"] ∧
      (evaluate table).2.entries.lookup "X" = some .external ∧
      evaluate (evaluate table).2 = evaluate table := by
  intro symbol raw table evaluate
  have found : Expression.read {} false "a + X## * b - x" = .ok raw := by decide +kernel
  have accepted : raw.toPostfix = (.ok (), raw.toPostfix.2) := rfl
  obtain ⟨-, names, values, -, -, again⟩ :=
    Expression.evaluate_registers found (by decide) accepted table
  exact ⟨found, names.trans (by decide), (values "X").trans (by decide), again⟩

end RelocExpr
