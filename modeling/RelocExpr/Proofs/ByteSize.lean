import RelocExpr.Proofs.Defects
import RelocExpr.Proofs.Diagnosis
import RelocExpr.Proofs.ReadParts
import RelocExpr.Proofs.Stability

/-!
# Bytes that are left to the linker

An expression of one byte is evaluated like a word, up to the first operator that has a
relocatable result.  There the byte is left to the linker; only the unary plus, which has
no effect, goes on.  An operator that the linker does not know never gets so far, because
`TYPE` has absolute results and `NUL` is gone when the parts are in postfix order.
-/

namespace RelocExpr

/-! ## Operators that are applied -/

/-- An operator that was applied, and its result. -/
structure Application where
  operator : Operator
  result : Address
  deriving DecidableEq, Repr

/-- Here a byte is left to the linker. -/
def Application.Defers (application : Application) : Prop :=
  application.operator ≠ .unary .plus ∧ application.result.isAbsolute = false

instance (application : Application) : Decidable application.Defers :=
  inferInstanceAs (Decidable (_ ∧ _))

/-- The operators that a run of parts applies, in their order, with the results that they
leave on top of the stack.  The list ends where the run stops. -/
def runApplications (expression : Expression) (mode : EvaluationMode) :
    List Part → (stack : List Address) → SymbolTable → List Application
  | .address address :: rest, stack, table =>
      runApplications expression mode rest (address :: stack) table
  | .symbol ref :: rest, stack, table =>
      match table.find? mode ref with
      | (some (.known address), mentioned) =>
          runApplications expression mode rest (address :: stack) mentioned
      | (some .external, mentioned) =>
          runApplications expression mode rest (.absolute 0 :: stack) mentioned
      | _ => []
  | .operator operator :: rest, stack, table =>
      match applyOperator expression operator stack with
      | .ok (some (result :: below)) =>
          { operator, result } :: runApplications expression mode rest (result :: below) table
      | _ => []
  | _, _, _ => []

namespace Expression

/-- The operators that are applied when the types are replaced. -/
def applicationsAfter (expression : Expression) (mode : EvaluationMode)
    (table : SymbolTable) : List Application :=
  match foldTypes mode [] expression.parts table with
  | (none, _) => []
  | (some parts, mentioned) => runApplications expression mode parts [] mentioned

/-- The operators that an evaluation applies before it stops, with their results. -/
def applications (expression : Expression) (mode : EvaluationMode) (table : SymbolTable) :
    List Application :=
  match mode with
  | .strict => expression.applicationsAfter .strict (table.mentionAll expression.symbolRefs)
  | .bestEffort => expression.applicationsAfter .bestEffort table
  | .lookahead =>
      if expression.hasSymbols then [] else expression.applicationsAfter .lookahead table

end Expression

/-! ## One operator in both sizes -/

/-- No result of a word is left to the linker. -/
theorem settle_false (operator : Operator) (result : Address) :
    Tree.settle false operator result = .ok result := by
  simp [Tree.settle]

/-- A byte is left to the linker where an operator calls for that. -/
theorem settle_true (operator : Operator) (result : Address) :
    Tree.settle true operator result =
      if Application.Defers { operator, result } then .error (.outcome .deferred)
      else .ok result := by
  rw [Tree.settle]
  by_cases defers : Application.Defers { operator, result }
  · rw [if_pos defers, if_pos ⟨rfl, defers⟩]
  · rw [if_neg defers, if_neg fun condition => defers condition.2]

/-- What the two sizes make of an operator: it is refused in both, or it has one result,
which is left to the linker as a byte if it calls for that. -/
inductive AppliedAlike (operator : Operator) :
    (word byte : Except Fault (Option (List Address))) → Prop
  | refused {fault : Fault} : (∀ cause, fault ≠ .error (.byteRelocatable cause)) →
      AppliedAlike operator (.error fault) (.error fault)
  | deferred {result : Address} (below : List Address) :
      Application.Defers { operator, result } →
      AppliedAlike operator (.ok (some (result :: below))) (.ok none)
  | pushed {result : Address} (below : List Address) :
      ¬Application.Defers { operator, result } →
      AppliedAlike operator (.ok (some (result :: below))) (.ok (some (result :: below)))

theorem applyOperator_alike {operator : Operator} (notNul : operator ≠ .unary .nul)
    (expression : Expression) (stack : List Address) :
    AppliedAlike operator (applyOperator (expression.withSize false) operator stack)
      (applyOperator (expression.withSize true) operator stack) := by
  cases operator with
  | unary op =>
      have notNulOp : op ≠ .nul := by
        rintro rfl
        contradiction
      cases stack with
      | nil => exact .refused (by simp)
      | cons operand below =>
          simp only [applyOperator, Tree.pushResult_unary notNulOp]
          rw [Expression.isByte_withSize, Expression.isByte_withSize, settle_false, settle_true]
          by_cases defers : Application.Defers { operator := .unary op, result := op.apply operand }
          · rw [if_pos defers]
            exact .deferred below defers
          · rw [if_neg defers]
            exact .pushed below defers
  | binary op =>
      rcases stack with _ | ⟨right, _ | ⟨left, below⟩⟩
      · exact .refused (by simp)
      · exact .refused (by simp)
      · cases applied : op.apply left right with
        | error error =>
            simp only [applyOperator, applied]
            apply AppliedAlike.refused
            rcases BinaryOp.apply_eq_error_cases applied with ⟨_, _, rfl⟩ | rfl <;> simp
        | ok result =>
            simp only [applyOperator, applied, Tree.pushResult_binary applied]
            rw [Expression.isByte_withSize, Expression.isByte_withSize, settle_false, settle_true]
            by_cases defers : Application.Defers { operator := .binary op, result }
            · rw [if_pos defers]
              exact .deferred below defers
            · rw [if_neg defers]
              exact .pushed below defers

/-! ## Runs in both sizes -/

/-- A word is neither left to the linker nor refused.  The byte is left to the linker when
some operator calls for it, and it comes to the same as the word when none does. -/
structure DefersExactly (word byte : Except Fault Evaluation × SymbolTable)
    (applied : List Application) : Prop where
  word_ne_deferred : word.1 ≠ .ok .deferred
  word_ne_refused : ∀ cause, word.1 ≠ .error (.error (.byteRelocatable cause))
  deferred : (∃ application ∈ applied, application.Defers) → byte.1 = .ok .deferred
  same : (∀ application ∈ applied, ¬application.Defers) → byte = word

namespace DefersExactly

variable {word byte result : Except Fault Evaluation × SymbolTable} {applied : List Application}

theorem of_same (notDeferred : result.1 ≠ .ok .deferred)
    (notRefused : ∀ cause, result.1 ≠ .error (.error (.byteRelocatable cause))) :
    DefersExactly result result [] where
  word_ne_deferred := notDeferred
  word_ne_refused := notRefused
  deferred := by simp
  same _ := rfl

/-- The evaluation goes on after an operator that does not call for the linker. -/
theorem cons {application : Application} (goesOn : ¬application.Defers)
    (later : DefersExactly word byte applied) :
    DefersExactly word byte (application :: applied) where
  word_ne_deferred := later.word_ne_deferred
  word_ne_refused := later.word_ne_refused
  deferred := by
    rintro ⟨other, member, defers⟩
    rcases List.mem_cons.1 member with rfl | inner
    · exact absurd defers goesOn
    · exact later.deferred ⟨other, inner, defers⟩
  same none := later.same fun other member => none other (List.mem_cons_of_mem _ member)

/-- The byte is left to the linker, whatever the word goes on to. -/
theorem cons_of_defers {application : Application} (defers : application.Defers)
    (later : DefersExactly word result applied) (left : byte.1 = .ok .deferred) :
    DefersExactly word byte (application :: applied) where
  word_ne_deferred := later.word_ne_deferred
  word_ne_refused := later.word_ne_refused
  deferred _ := left
  same none := absurd defers (none application (List.mem_cons_self ..))

theorem eq_or_deferred (exactly : DefersExactly word byte applied) :
    byte = word ∨ byte.1 = .ok .deferred := by
  by_cases some : ∃ application ∈ applied, application.Defers
  · exact .inr (exactly.deferred some)
  · exact .inl (exactly.same (by simpa using some))

theorem deferred_iff (exactly : DefersExactly word byte applied) :
    byte.1 = .ok .deferred ↔ ∃ application ∈ applied, application.Defers := by
  constructor
  · intro left
    by_contra none
    rw [exactly.same (by simpa using none)] at left
    exact exactly.word_ne_deferred left
  · exact exactly.deferred

theorem byte_ne_refused (exactly : DefersExactly word byte applied) (cause : Operator) :
    byte.1 ≠ .error (.error (.byteRelocatable cause)) := by
  rcases exactly.eq_or_deferred with same | left
  · rw [same]
    exact exactly.word_ne_refused cause
  · simp [left]

end DefersExactly

variable {expression : Expression} {mode : EvaluationMode}

/-- A run goes the same way in both sizes, up to an operator that calls for the linker. -/
theorem runParts_defersExactly {parts : List Part} (noNul : .operator (.unary .nul) ∉ parts)
    (expression : Expression) (mode : EvaluationMode) (stack : List Address) (external : Bool)
    (table : SymbolTable) :
    DefersExactly (runParts (expression.withSize false) mode parts stack external table)
      (runParts (expression.withSize true) mode parts stack external table)
      (runApplications (expression.withSize false) mode parts stack table) := by
  induction parts generalizing stack external table with
  | nil =>
      match stack with
      | [] => exact .of_same (by simp [runParts]) (by simp [runParts])
      | [result] => exact .of_same (by cases external <;> simp [runParts]) (by simp [runParts])
      | _ :: _ :: _ => exact .of_same (by simp [runParts]) (by simp [runParts])
  | cons part rest ih =>
      have restNoNul : .operator (.unary .nul) ∉ rest := by
        intro member
        exact noNul (List.mem_cons_of_mem _ member)
      cases part with
      | address address => exact ih restNoNul ..
      | symbol ref =>
          rw [runParts, runParts, runApplications]
          rcases table.find? mode ref with ⟨value?, mentioned⟩
          rcases value? with _ | value
          · exact .of_same (by simp) (by simp)
          · cases value with
            | known address => exact ih restNoNul ..
            | external => exact ih restNoNul ..
            | unknown => exact .of_same (by simp) (by simp)
      | operator operator =>
          have notNul : operator ≠ .unary .nul := by
            rintro rfl
            exact noNul (List.mem_cons_self ..)
          rw [runParts, runParts, runApplications]
          have applied := applyOperator_alike notNul expression stack
          generalize applyOperator (expression.withSize false) operator stack = word at applied
          generalize applyOperator (expression.withSize true) operator stack = byte at applied
          cases applied with
          | refused notRefused => exact .of_same (by simp) (by simpa using notRefused)
          | @deferred result below defers =>
              have later := ih restNoNul (result :: below) external table
              exact later.cons_of_defers defers rfl
          | @pushed result below goesOn =>
              have later := ih restNoNul (result :: below) external table
              exact later.cons goesOn
      | opening | closing | bytes => exact .of_same (by simp [runParts]) (by simp [runParts])

namespace Expression

theorem run_defersExactly (ordered : expression.isPostfix = true)
    (noNul : .operator (.unary .nul) ∉ expression.parts) (mode : EvaluationMode)
    (table : SymbolTable) :
    DefersExactly ((expression.withSize false).run mode table)
      ((expression.withSize true).run mode table)
      ((expression.withSize false).applicationsAfter mode table) := by
  rw [run, run, applicationsAfter, isPostfix_withSize, isPostfix_withSize, parts_withSize,
    parts_withSize, ordered]
  by_cases empty : expression.parts = []
  · rw [empty]
    exact .of_same (by simp) (by simp)
  · have nonempty : expression.parts.isEmpty = false := by simpa using empty
    simp only [nonempty, Bool.not_true, Bool.false_eq_true, if_false]
    cases folds : foldTypes mode [] expression.parts table with
    | mk parts? mentioned =>
        cases parts? with
        | none => exact .of_same (by simp) (by simp)
        | some parts =>
            apply runParts_defersExactly
            intro member
            exact noNul (by simpa using mem_of_foldTypes (by simp) folds member)

theorem evaluate_defersExactly (ordered : expression.isPostfix = true)
    (noNul : .operator (.unary .nul) ∉ expression.parts) (mode : EvaluationMode)
    (table : SymbolTable) :
    DefersExactly ((expression.withSize false).evaluate mode table)
      ((expression.withSize true).evaluate mode table)
      ((expression.withSize false).applications mode table) := by
  cases mode with
  | strict => exact run_defersExactly ordered noNul .strict _
  | bestEffort => exact run_defersExactly ordered noNul .bestEffort table
  | lookahead =>
      have sameSymbols : (expression.withSize true).hasSymbols =
        (expression.withSize false).hasSymbols := rfl
      rw [evaluate, evaluate, applications, sameSymbols]
      split
      · exact .of_same (by simp) (by simp)
      · exact run_defersExactly ordered noNul .lookahead table

variable {reading : Reading} {isByte : Bool} {text : String}

/-- No text is refused for an operator that the linker does not know. -/
theorem compile_ne_refused (cause : Operator) :
    compile reading isByte text ≠ .error (.byteRelocatable cause) := by
  intro refused
  cases readable : readParts reading false (Text.trim Text.isBlank text.toList) with
  | error error =>
      rw [compile_of_readParts_error readable] at refused
      cases refused
      cases category_of_readParts readable
  | ok parts =>
      rw [compile_of_readParts readable] at refused
      have rejected := orderParts_eq_error_iff_rejected.1 (Except.map_eq_error_iff.1 refused)
      generalize simplifyParts parts = simple at rejected
      cases rejected

/-- What comes of a text as a byte is what comes of it as a word, or the byte is left to
the linker; and this is so exactly when the evaluation of the word applies an operator
other than the unary plus that has a relocatable result.  No operator is ever refused
because the linker does not know it. -/
theorem evaluate_withSize_true (reading : Reading) (isByte : Bool) (text : String) :
    (∀ cause, compile reading isByte text ≠ .error (.byteRelocatable cause)) ∧
      ∀ expression, compile reading isByte text = .ok expression → ∀ mode table,
        let word := (expression.withSize false).evaluate mode table
        let byte := (expression.withSize true).evaluate mode table
        let applied := (expression.withSize false).applications mode table
        (byte = word ∨ byte.1 = .ok .deferred) ∧
          (byte.1 = .ok .deferred ↔ ∃ application ∈ applied,
            application.operator ≠ .unary .plus ∧ application.result.isAbsolute = false) ∧
          ∀ cause, word.1 ≠ .error (.error (.byteRelocatable cause)) ∧
            byte.1 ≠ .error (.error (.byteRelocatable cause)) := by
  refine ⟨compile_ne_refused, ?_⟩
  intro expression compiled mode table word byte applied
  have ordered := ordered_of_compile compiled
  have exactly := evaluate_defersExactly ordered.isPostfix ordered.nul_not_mem_parts mode table
  refine ⟨exactly.eq_or_deferred, exactly.deferred_iff, ?_⟩
  intro cause
  exact ⟨exactly.word_ne_refused cause, exactly.byte_ne_refused cause⟩

end Expression

/-- `+START + 1` is left to the linker for the binary plus and not for the unary one. -/
theorem evaluate_withSize_true_of_relocatable_sum :
    let expression : Expression :=
      { source := "+START + 1"
        parts := [.symbol { name := "START", external := false, root := false },
          .operator (.unary .plus), .number 1, .operator (.binary .plus)]
        isByte := false
        isPostfix := true }
    let table : SymbolTable := { entries := [("START", .known ⟨.code, 3⟩)] }
    Expression.compile {} false "+START + 1" = .ok expression ∧
      (expression.withSize false).applications .strict table =
        [{ operator := .unary .plus, result := ⟨.code, 3⟩ },
          { operator := .binary .plus, result := ⟨.code, 4⟩ }] ∧
      ((expression.withSize true).evaluate .strict table).1 = .ok .deferred := by
  intro expression table
  have compiled : Expression.compile {} false "+START + 1" = .ok expression := by
    decide +kernel
  have applied : (expression.withSize false).applications .strict table =
      [{ operator := .unary .plus, result := ⟨.code, 3⟩ },
        { operator := .binary .plus, result := ⟨.code, 4⟩ }] := by decide
  have exactly := (Expression.evaluate_withSize_true {} false "+START + 1").2 expression
    compiled .strict table
  refine ⟨compiled, applied, exactly.2.1.2 ?_⟩
  rw [applied]
  exact ⟨_, List.mem_cons_of_mem _ (List.mem_cons_self ..), by decide⟩

end RelocExpr
