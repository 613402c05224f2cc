import RelocExpr.Proofs.Mentions
import RelocExpr.Proofs.TreeEvaluation

/-!
# Results that stay

A best-effort evaluation that is not undecided has looked at symbols with a value only.
Values stay when more symbols are mentioned, so the result is the same with every table
that knows as much as the one that was left, in a strict evaluation too.  An expression
without symbols has one result in every mode and with every table.
-/

namespace RelocExpr

variable {expression : Expression} {done parts folded : List Part} {stack : List Address}
  {external : Bool} {table mentioned later : SymbolTable} {mode : EvaluationMode}
  {ref : SymbolRef} {value? : Option SymbolValue} {value : SymbolValue}
  {folded? : Option (List Part)} {outcome : Except Fault Evaluation}

/-! ## What an evaluation mentions -/

theorem SymbolTable.find?_mentionsAmong (found : table.find? mode ref = (value?, mentioned))
    (member : .symbol ref ∈ parts) : MentionsAmong parts table mentioned := by
  cases mode with
  | lookahead =>
      cases found
      exact .refl parts table
  | strict | bestEffort =>
      cases found
      exact .single member table

/-- The replacement of types mentions symbols of the parts only. -/
theorem foldTypes_mentionsAmong
    (folds : foldTypes mode done parts table = (folded?, mentioned)) :
    SymbolTable.MentionsAmong (done ++ parts) table mentioned := by
  fun_induction foldTypes mode done parts table with
  | case1 done table =>
      cases folds
      exact .refl ..
  | case2 rest table address before ih => exact (ih folds).mono (by simp [Part.number])
  | case3 rest table ref before middle found =>
      cases folds
      exact SymbolTable.find?_mentionsAmong found (by simp)
  | case4 rest table ref before value middle found ih =>
      have member : .symbol ref ∈ .symbol ref :: before ++ .operator (.unary .type) :: rest := by
        simp
      have first := SymbolTable.find?_mentionsAmong found member
      exact first.trans ((ih folds).mono (by simp +contextual [Part.number]))
  | case5 done rest table _ _ ih => exact (ih folds).mono (by simp)
  | case6 done part rest table _ ih =>
      exact (ih folds).mono (by simp +contextual [or_left_comm])

/-- The replacement of types brings in tags only. -/
theorem mem_of_foldTypes {part : Part} (notAddress : ∀ address, part ≠ .address address)
    (folds : foldTypes mode done parts table = (some folded, mentioned))
    (member : part ∈ folded) : part ∈ done ++ parts := by
  fun_induction foldTypes mode done parts table with
  | case1 done table =>
      cases folds
      simpa using member
  | case2 rest table address before ih =>
      have inner := ih folds
      simp only [Part.number, List.cons_append, List.mem_cons, notAddress, false_or] at inner
      rcases List.mem_append.1 inner with early | late
      · simp [early]
      · simp [late]
  | case3 => cases folds
  | case4 rest table other before value middle found ih =>
      have inner := ih folds
      simp only [Part.number, List.cons_append, List.mem_cons, notAddress, false_or] at inner
      rcases List.mem_append.1 inner with early | late
      · simp [early]
      · simp [late]
  | case5 done rest table _ _ ih => simpa [or_left_comm] using ih folds
  | case6 done part rest table _ ih => simpa [or_left_comm] using ih folds

/-- The symbols that are left were among the parts. -/
theorem symbol_mem_of_foldTypes
    (folds : foldTypes mode done parts table = (some folded, mentioned))
    (member : .symbol ref ∈ folded) : .symbol ref ∈ done ++ parts :=
  mem_of_foldTypes (by simp) folds member

theorem runParts_mentionsAmong
    (runs : runParts expression mode parts stack external table = (outcome, mentioned)) :
    SymbolTable.MentionsAmong parts table mentioned := by
  have tail {rest : List Part} {earlier : SymbolTable} (part : Part)
      (mentions : SymbolTable.MentionsAmong rest earlier mentioned) :
      SymbolTable.MentionsAmong (part :: rest) earlier mentioned :=
    mentions.mono fun _ member => List.mem_cons_of_mem part member
  fun_induction runParts expression mode parts stack external table with
  | case1 | case2 | case8 | case9 | case11 | case12 =>
      cases runs
      exact .refl ..
  | case3 address rest stack external table ih => exact tail _ (ih runs)
  | case4 ref rest stack external table middle found
  | case7 ref rest stack external table middle found =>
      cases runs
      exact SymbolTable.find?_mentionsAmong found (List.mem_cons_self ..)
  | case5 ref rest stack external table address middle found ih
  | case6 ref rest stack external table middle found ih =>
      have first := SymbolTable.find?_mentionsAmong found (@List.mem_cons_self _ _ rest)
      exact first.trans (tail _ (ih runs))
  | case10 operator rest stack external table result applied ih => exact tail _ (ih runs)

theorem Expression.run_mentionsAmong (runs : expression.run mode table = (outcome, mentioned)) :
    SymbolTable.MentionsAmong expression.parts table mentioned := by
  rw [run] at runs
  split at runs
  · cases runs
    exact .refl ..
  · split at runs
    · cases runs
      exact .refl ..
    · split at runs
      · next folds =>
          cases runs
          exact foldTypes_mentionsAmong folds
      · next folds =>
          have left := (runParts_mentionsAmong runs).mono
            fun _ member => symbol_mem_of_foldTypes folds member
          exact (foldTypes_mentionsAmong folds).trans left

/-! ## Evaluation with a later table -/

theorem SymbolTable.find?_of_extends
    (found : table.find? .bestEffort ref = (some value, mentioned))
    (extends_ : later.Extends mentioned) (goesOn : mode ≠ .lookahead) :
    later.find? mode ref = (some value, later) := by
  simp only [find?, Prod.mk.injEq] at found
  rcases found with ⟨known, rfl⟩
  split at known
  · cases known
  · next settled =>
      cases known
      have same := extends_.valueOf ref settled
      have laterSettled : later.valueOf ref ≠ .unknown := by rwa [same]
      cases mode with
      | lookahead => contradiction
      | strict => simp only [find?, mention_eq_self laterSettled, same]
      | bestEffort => simp only [find?, mention_eq_self laterSettled, same, if_neg settled]

theorem foldTypes_of_extends
    (folds : foldTypes .bestEffort done parts table = (some folded, mentioned))
    (extends_ : later.Extends mentioned) (goesOn : mode ≠ .lookahead) :
    foldTypes mode done parts later = (some folded, later) := by
  fun_induction foldTypes .bestEffort done parts table with
  | case1 done table =>
      cases folds
      rfl
  | case2 rest table address before ih => exact ih folds
  | case3 => cases folds
  | case4 rest table ref before value middle found ih =>
      have still := extends_.trans (foldTypes_mentionsAmong folds).extends_
      simp only [foldTypes, SymbolTable.find?_of_extends found still goesOn, if_true]
      exact ih folds
  | case5 done rest table notAddress notSymbol ih =>
      rw [foldTypes, if_pos rfl]
      · exact ih folds
      · exact notAddress
      · exact notSymbol
  | case6 done part rest table other ih =>
      rw [Tree.foldTypes_of_ne other]
      exact ih folds

theorem runParts_of_extends
    (runs : runParts expression .bestEffort parts stack external table = (outcome, mentioned))
    (decided : outcome ≠ .ok .undecided) (extends_ : later.Extends mentioned)
    (goesOn : mode ≠ .lookahead) :
    runParts expression mode parts stack external later = (outcome, later) := by
  fun_induction runParts expression .bestEffort parts stack external table with
  | case1 external table result =>
      cases runs
      rfl
  | case2 stack external table notSingle =>
      cases runs
      rw [runParts]
      exact notSingle
  | case3 address rest stack external table ih => exact ih runs
  | case4 ref rest stack external table middle found =>
      cases runs
      contradiction
  | case5 ref rest stack external table address middle found ih
  | case6 ref rest stack external table middle found ih =>
      have still := extends_.trans (runParts_mentionsAmong runs).extends_
      rw [runParts, SymbolTable.find?_of_extends found still goesOn]
      exact ih runs
  | case7 ref rest stack external table middle found =>
      -- A best-effort look finds no unknown value.
      simp [SymbolTable.find?] at found
  | case8 operator rest stack external table fault applied
  | case9 operator rest stack external table applied =>
      cases runs
      rw [runParts, applied]
  | case10 operator rest stack external table result applied ih =>
      rw [runParts, applied]
      exact ih runs
  | case11 stack external content literal tail table =>
      cases runs
      rfl
  | case12 stack external part tail table notAddress notSymbol notOperator notBytes =>
      cases runs
      rw [runParts]
      · exact notAddress
      · exact notSymbol
      · exact notOperator
      · exact notBytes

/-! ## Evaluation without symbols -/

theorem foldTypes_of_no_symbol (none : ∀ ref, .symbol ref ∉ done ++ parts)
    (mode other : EvaluationMode) (table later : SymbolTable) :
    foldTypes mode done parts table = ((foldTypes other done parts later).1, table) := by
  fun_induction foldTypes mode done parts table with
  | case1 done table => rfl
  | case2 rest table address before ih => exact ih (by simpa [Part.number] using none)
  | case3 rest table ref before | case4 rest table ref before =>
      exact absurd (List.mem_append_left _ (List.mem_cons_self ..)) (none ref)
  | case5 done rest table notAddress notSymbol ih =>
      have same := ih (by simpa using none)
      rw [same, foldTypes, if_pos rfl]
      · exact notAddress
      · exact notSymbol
  | case6 done part rest table other ih =>
      rw [ih (by simpa [not_or, and_left_comm] using none), Tree.foldTypes_of_ne other]

theorem runParts_of_no_symbol (none : ∀ ref, .symbol ref ∉ parts)
    (mode other : EvaluationMode) (table later : SymbolTable) :
    runParts expression mode parts stack external table =
      ((runParts expression other parts stack external later).1, table) := by
  have tail {part : Part} {rest : List Part} (none : ∀ ref, .symbol ref ∉ part :: rest)
      (ref : SymbolRef) : .symbol ref ∉ rest :=
    fun member => none ref (List.mem_cons_of_mem part member)
  fun_induction runParts expression mode parts stack external table with
  | case1 | case11 => rfl
  | case2 stack external table notSingle =>
      rw [runParts]
      exact notSingle
  | case3 address rest stack external table ih => exact ih (tail none)
  | case4 ref | case5 ref | case6 ref | case7 ref =>
      exact absurd (List.mem_cons_self ..) (none ref)
  | case8 operator rest stack external table fault applied
  | case9 operator rest stack external table applied => rw [runParts, applied]
  | case10 operator rest stack external table result applied ih =>
      rw [runParts, applied]
      exact ih (tail none)
  | case12 stack external part tail table notAddress notSymbol notOperator notBytes =>
      rw [runParts]
      · exact notAddress
      · exact notSymbol
      · exact notOperator
      · exact notBytes

/-! ## Evaluation of expressions -/

namespace Expression

theorem run_of_extends
    (runs : expression.run .bestEffort table = (outcome, mentioned))
    (decided : outcome ≠ .ok .undecided) (extends_ : later.Extends mentioned)
    (goesOn : mode ≠ .lookahead) : expression.run mode later = (outcome, later) := by
  rw [run] at runs
  split at runs
  · next unordered =>
      cases runs
      rw [run, if_pos unordered]
  · next ordered =>
      split at runs
      · next empty =>
          cases runs
          rw [run, if_neg ordered, if_pos empty]
      · next nonempty =>
          split at runs
          · cases runs
            contradiction
          · next folds =>
              have still := extends_.trans (runParts_mentionsAmong runs).extends_
              rw [run, if_neg ordered, if_neg nonempty, foldTypes_of_extends folds still goesOn]
              exact runParts_of_extends runs decided extends_ goesOn

theorem run_of_no_symbol (none : expression.hasSymbols = false) (mode other : EvaluationMode)
    (table later : SymbolTable) :
    expression.run mode table = ((expression.run other later).1, table) := by
  have free (ref : SymbolRef) : .symbol ref ∉ expression.parts := by
    intro member
    have named : ref ∈ expression.symbolRefs := List.mem_filterMap.2 ⟨_, member, rfl⟩
    simp_all [hasSymbols]
  rw [run, run]
  split
  · rfl
  · split
    · rfl
    · have folds := @foldTypes_of_no_symbol [] _ free mode other table later
      cases found : foldTypes other [] expression.parts later with
      | mk folded? mentioned =>
          rw [found] at folds
          rw [folds]
          cases folded? with
          | none => rfl
          | some folded =>
              apply runParts_of_no_symbol
              intro ref member
              exact free ref (symbol_mem_of_foldTypes found member)

/-- All symbols are mentioned at the start of a strict evaluation, and only some of them
by a best-effort one. -/
theorem extends_of_run (runs : expression.run mode table = (outcome, mentioned)) :
    (table.mentionAll expression.symbolRefs).Extends mentioned := by
  obtain ⟨refs, among, rfl⟩ := run_mentionsAmong runs
  apply SymbolTable.Extends.mentionAll_of_subset
  intro ref member
  exact List.mem_filterMap.2 ⟨_, among ref member, rfl⟩

theorem evaluate_of_lookahead (looked : expression.evaluate .lookahead table = (outcome, mentioned))
    (decided : outcome ≠ .ok .undecided) (mode : EvaluationMode) (later : SymbolTable) :
    expression.evaluate mode later = (outcome, later) := by
  rw [evaluate] at looked
  split at looked
  · cases looked
    contradiction
  · next symbols =>
      have none : expression.hasSymbols = false := by simpa using symbols
      have noRefs : expression.symbolRefs = [] := by simpa [hasSymbols] using none
      have ran (mode : EvaluationMode) : expression.run mode later = (outcome, later) := by
        rw [run_of_no_symbol none mode .lookahead later table, looked]
      cases mode with
      | strict => rw [evaluate, noRefs, SymbolTable.mentionAll_nil, ran]
      | bestEffort => rw [evaluate, ran]
      | lookahead => rw [evaluate, none, if_neg (by decide), ran]

/-- A best-effort result that is not undecided is the result of the strict evaluation too,
and of both with every table of the same module that has the known and the external
symbols of the table that was left.  A result of a lookahead is the result in every mode
and with every table, which stays as it is. -/
theorem evaluate_stable (expression : Expression) (table : SymbolTable) :
    let tried := expression.evaluate .bestEffort table
    let ahead := (expression.evaluate .lookahead table).1
    (tried.1 ≠ .ok .undecided →
      (expression.evaluate .strict table).1 = tried.1 ∧
        ∀ later : SymbolTable, later.moduleName = tried.2.moduleName →
          (∀ name value, tried.2.entries.lookup name = some value → value ≠ .unknown →
            later.entries.lookup name = some value) →
          (expression.evaluate .bestEffort later).1 = tried.1 ∧
            (expression.evaluate .strict later).1 = tried.1) ∧
      (ahead ≠ .ok .undecided →
        ∀ mode later, expression.evaluate mode later = (ahead, later)) := by
  intro tried ahead
  have runs : expression.run .bestEffort table = (tried.1, tried.2) := rfl
  constructor
  · intro decided
    constructor
    · rw [evaluate, run_of_extends runs decided (extends_of_run runs) (by decide)]
    · intro later sameModule kept
      have knows : later.Extends tried.2 := .of_lookup sameModule kept
      have mentions := SymbolTable.Extends.mentionAll later expression.symbolRefs
      constructor
      · rw [evaluate, run_of_extends runs decided knows (by decide)]
      · rw [evaluate, run_of_extends runs decided (mentions.trans knows) (by decide)]
  · exact evaluate_of_lookahead rfl

end Expression

/-- The external `X` and the known `A` are looked at in `A - X##`, and `1 / 0` has no
symbols. -/
theorem evaluate_stable_of_external_difference :
    let known : SymbolRef := { name := "A", external := false, root := false }
    let imported : SymbolRef := { name := "X", external := true, root := false }
    let difference : Expression :=
      { source := "A - X##"
        parts := [.symbol known, .symbol imported, .operator (.binary .minus)]
        isByte := false
        isPostfix := true }
    let quotient : Expression :=
      { source := "1 / 0"
        parts := [.number 1, .number 0, .operator (.binary .divide)]
        isByte := false
        isPostfix := true }
    let table : SymbolTable := { entries := [("X", .unknown), ("A", .known ⟨.code, 3⟩)] }
    let later : SymbolTable :=
      { entries := [("B", .unknown), ("A", .known ⟨.code, 3⟩), ("X", .external)] }
    (difference.evaluate .strict table).1 = .ok .external ∧
      (difference.evaluate .bestEffort later).1 = .ok .external ∧
      (difference.evaluate .strict later).1 = .ok .external ∧
      ∀ mode, quotient.evaluate mode later =
        (.error (.error (.divisionByZero (.binary .divide))), later) := by
  intro known imported difference quotient table later
  have tried : difference.evaluate .bestEffort table =
      (.ok .external, { entries := [("X", .external), ("A", .known ⟨.code, 3⟩)] }) := by
    decide
  have stable := (Expression.evaluate_stable difference table).1 (by decide)
  rw [tried] at stable
  have stays := stable.2 later rfl ?_
  · have ahead := (Expression.evaluate_stable quotient table).2 (by decide)
    exact ⟨stable.1, stays.1, stays.2, fun mode => ahead mode later⟩
  · intro name value found settled
    simp only [Association.lookup_cons_eq_ite] at found
    split at found
    · next same =>
        cases found
        subst same
        rfl
    · split at found
      · next same =>
          cases found
          subst same
          rfl
      · cases found

end RelocExpr
