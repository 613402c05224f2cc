import RelocExpr.Expression.Postfix
import RelocExpr.Proofs.LinkProgram

/-!
# External symbols in an evaluation

An external symbol counts as zero while an expression is evaluated, and that it has been
met is looked at when every operator has been applied.  So an expression with an external
symbol comes to an external value if its operators are defined for zero in the place of
the symbol.  If one is not, the evaluation fails, though the linker could compute the
expression with the address of the symbol.  Only under a `TYPE` does zero not count.
-/

namespace RelocExpr

namespace Tree

variable {tree subtree operand : Tree} {op : UnaryOp} {ref : SymbolRef} {table : SymbolTable}
  {mode : EvaluationMode} {value : Address} {error : ExpressionError}

/-! ## Symbols that count as zero -/

/-- Some external symbol is not directly under a `TYPE`. -/
def hasExternal (table : SymbolTable) (tree : Tree) : Bool :=
  table.anyExternal tree.looseRefs

/-- The value of a tree with zero for its external symbols and with the tags of the
symbols directly under a `TYPE`. -/
def assess (table : SymbolTable) : Tree → Except ExpressionError Address
  | .address value => .ok value
  | .symbol ref => .ok (table.standIn ref)
  | .unary op operand =>
      match typedRef? op operand with
      | some ref => .ok (.absolute (table.valueOf ref).typeTag)
      | none => (operand.assess table).map op.apply
  | .binary op left right => op.applyResults (left.assess table) (right.assess table)

/-- With the tags in their place and zero for external symbols, a tree computes what it is
assessed at. -/
theorem compute_tagged (tree : Tree) (table : SymbolTable) :
    (tree.tagged table).compute table.standIn = tree.assess table := by
  induction tree with
  | address value => rfl
  | symbol ref => rfl
  | unary op operand ih =>
      rw [assess]
      cases typed : typedRef? op operand with
      | some ref =>
          obtain ⟨rfl, rfl⟩ := eq_of_typedRef? typed
          rfl
      | none =>
          rw [← ih]
          by_cases type : op = .type
          · subst type
            rw [tagged_type typed]
            cases operand.tagged table <;> rfl
          · rw [tagged, if_neg type, compute]
  | binary op left right leftIH rightIH => rw [tagged, compute, leftIH, rightIH, assess]

/-- When no symbol is unknown, the types are replaced without a change to the table, and
what is left is the tree that is assessed. -/
theorem exists_replaceTypes_of_settled
    (settled : ∀ ref ∈ tree.typedRefs, table.valueOf ref ≠ .unknown) (mode : EvaluationMode) :
    ∃ replaced, tree.replaceTypes mode table = (some replaced, table) ∧
      replaced.symbolRefs = tree.looseRefs ∧
      replaced.compute table.standIn = tree.assess table := by
  exact ⟨tree.tagged table, replaceTypes_of_settled settled mode, tree.symbolRefs_tagged table,
    tree.compute_tagged table⟩

/-! ## Operators that fail on zero -/

/-- A tree and the trees of its operands. -/
def subtrees : Tree → List Tree
  | .address value => [.address value]
  | .symbol ref => [.symbol ref]
  | .unary op operand => .unary op operand :: operand.subtrees
  | .binary op left right => .binary op left right :: (left.subtrees ++ right.subtrees)

theorem mem_subtrees_self (tree : Tree) : tree ∈ tree.subtrees := by
  cases tree <;> exact List.mem_cons_self ..

/-- The operands of the tree have a value, and its operator is not defined for them. -/
def Undefined (table : SymbolTable) (error : ExpressionError) (tree : Tree) : Prop :=
  ∃ op left right leftValue rightValue, tree = .binary op left right ∧
    left.assess table = .ok leftValue ∧ right.assess table = .ok rightValue ∧
    op.apply leftValue rightValue = .error error

theorem Undefined.assess_eq (undefined : tree.Undefined table error) :
    tree.assess table = .error error := by
  obtain ⟨op, left, right, leftValue, rightValue, rfl, leftAssessed, rightAssessed, here⟩ :=
    undefined
  rw [assess, leftAssessed, rightAssessed]
  exact here

/-- An error is that of an operator whose operands have a value. -/
theorem exists_undefined_of_assess (failed : tree.assess table = .error error) :
    ∃ subtree ∈ tree.subtrees, subtree.Undefined table error := by
  induction tree with
  | address value => cases failed
  | symbol ref => cases failed
  | unary op operand ih =>
      rw [assess] at failed
      split at failed
      · cases failed
      · obtain ⟨subtree, member, undefined⟩ := ih (Except.map_eq_error_iff.1 failed)
        exact ⟨subtree, List.mem_cons_of_mem _ member, undefined⟩
  | binary op left right leftIH rightIH =>
      rcases BinaryOp.applyResults_eq_error_iff.1 failed with
        leftFailed | ⟨leftValue, leftAssessed, rightFailed | ⟨rightValue, rightAssessed, here⟩⟩
      · obtain ⟨subtree, member, undefined⟩ := leftIH leftFailed
        exact ⟨subtree, List.mem_cons_of_mem _ (List.mem_append_left _ member), undefined⟩
      · obtain ⟨subtree, member, undefined⟩ := rightIH rightFailed
        exact ⟨subtree, List.mem_cons_of_mem _ (List.mem_append_right _ member), undefined⟩
      · exact ⟨_, mem_subtrees_self _, op, left, right, leftValue, rightValue, rfl,
          leftAssessed, rightAssessed, here⟩

/-- A tree has a value only if its operands have one. -/
theorem exists_value_of_mem_subtrees (assessed : tree.assess table = .ok value)
    (member : subtree ∈ tree.subtrees) : ∃ inner, subtree.assess table = .ok inner := by
  induction tree generalizing value with
  | address | symbol =>
      cases List.mem_singleton.1 member
      exact ⟨_, assessed⟩
  | unary op operand ih =>
      rcases List.mem_cons.1 member with rfl | below
      · exact ⟨value, assessed⟩
      · rw [assess] at assessed
        split at assessed
        · next typed =>
            obtain ⟨-, rfl⟩ := eq_of_typedRef? typed
            cases List.mem_singleton.1 below
            exact ⟨_, rfl⟩
        · obtain ⟨inner, operandAssessed, -⟩ := Except.map_eq_ok_iff.1 assessed
          exact ih operandAssessed below
  | binary op left right leftIH rightIH =>
      rcases List.mem_cons.1 member with rfl | below
      · exact ⟨value, assessed⟩
      · obtain ⟨leftValue, rightValue, leftAssessed, rightAssessed, -⟩ :=
          BinaryOp.applyResults_eq_ok_iff.1 assessed
        rcases List.mem_append.1 below with inner | inner
        · exact leftIH leftAssessed inner
        · exact rightIH rightAssessed inner

end Tree

/-! ## Evaluation of words -/

namespace Expression

variable {expression : Expression} {tree : Tree} {table : SymbolTable} {mode : EvaluationMode}

/-- A word without unknown symbols comes to what its tree is assessed at, or to an external
value.  The table stays as it is. -/
theorem evaluate_of_settled (ordered : expression.isPostfix = true)
    (word : expression.isByte = false) (parts : expression.parts = tree.postOrder)
    (freeOfNul : tree.FreeOfNul)
    (settled : ∀ ref ∈ tree.symbolRefs, table.valueOf ref ≠ .unknown)
    (goesOn : mode ≠ .lookahead) :
    expression.evaluate mode table =
      (((tree.assess table).map fun value =>
        if tree.hasExternal table then .external else .resolved value).mapError .error,
        table) := by
  have typedSettled (ref : SymbolRef) (member : ref ∈ tree.typedRefs) :=
    settled ref (tree.typedRefs_subset member)
  obtain ⟨replaced, found, refs, computed⟩ :=
    Tree.exists_replaceTypes_of_settled typedSettled mode
  have replacedSettled (ref : SymbolRef) (member : ref ∈ replaced.symbolRefs) :=
    settled ref ((Tree.symbolRefs_replaceTypes found).subset member)
  obtain ⟨met, valued, whenDone, -⟩ := Tree.value_of_settled replacedSettled mode false
  have ran : expression.evaluate mode table = expression.run mode table := by
    cases mode with
    | lookahead => contradiction
    | strict =>
        rw [evaluate, symbolRefs_of_postOrder parts, SymbolTable.mentionAll_eq_self settled]
    | bestEffort => rfl
  rw [ran, run_postOrder ordered parts freeOfNul (.of_ne_lookahead goesOn), word, Tree.run,
    found]
  simp only [valued]
  rw [refs, computed, Bool.false_or] at whenDone
  rw [computed]
  cases assessed : tree.assess table with
  | error error => rfl
  | ok value =>
      rw [whenDone value assessed]
      rfl

/-- When every operator without an external operand has a result, a word with an external
symbol comes to an external value, provided that the other operators are defined for zero
in its place.  If they are not, the error of one of them is what the word comes to. -/
theorem evaluate_external_or_undefined (ordered : expression.isPostfix = true)
    (word : expression.isByte = false) (parts : expression.parts = tree.postOrder)
    (freeOfNul : tree.FreeOfNul)
    (settled : ∀ ref ∈ tree.symbolRefs, table.valueOf ref ≠ .unknown)
    (external : tree.hasExternal table = true)
    (sound : ∀ subtree ∈ tree.subtrees, subtree.hasExternal table = false →
      ∃ value, subtree.assess table = .ok value)
    (goesOn : mode ≠ .lookahead) :
    (expression.evaluate mode table = (.ok .external, table) ∧
        ∀ subtree ∈ tree.subtrees, ∀ error, ¬ subtree.Undefined table error) ∨
      ∃ subtree ∈ tree.subtrees, ∃ error, subtree.hasExternal table = true ∧
        subtree.Undefined table error ∧
        expression.evaluate mode table = (.error (.error error), table) := by
  have evaluated := evaluate_of_settled ordered word parts freeOfNul settled goesOn
  cases assessed : tree.assess table with
  | ok value =>
      left
      constructor
      · rw [evaluated, assessed, external]
        rfl
      · intro subtree member error undefined
        obtain ⟨inner, innerAssessed⟩ := Tree.exists_value_of_mem_subtrees assessed member
        rw [undefined.assess_eq] at innerAssessed
        cases innerAssessed
  | error error =>
      right
      obtain ⟨subtree, member, undefined⟩ := Tree.exists_undefined_of_assess assessed
      refine ⟨subtree, member, error, ?_, undefined, ?_⟩
      · by_contra free
        obtain ⟨value, subtreeAssessed⟩ := sound subtree member (by simpa using free)
        rw [undefined.assess_eq] at subtreeAssessed
        cases subtreeAssessed
      · rw [evaluated, assessed]
        rfl

end Expression

/-- The external `X` counts as zero in `X + START`, and zero can be added to any
address. -/
theorem evaluate_external_of_relocatable_sum :
    let imported : SymbolRef := { name := "X", external := false, root := false }
    let start : SymbolRef := { name := "START", external := false, root := false }
    let expression : Expression :=
      { source := "X + START"
        parts := [.symbol imported, .symbol start, .operator (.binary .plus)]
        isByte := false
        isPostfix := true }
    let table : SymbolTable :=
      { entries := [("X", .external), ("START", .known ⟨.code, 0x100⟩)] }
    expression.evaluate .strict table = (.ok .external, table) := by
  intro imported start expression table
  let tree : Tree := .binary .plus (.symbol imported) (.symbol start)
  have freeOfNul : tree.FreeOfNul := ⟨trivial, trivial⟩
  have whole : tree.assess table = .ok ⟨.code, 0x100⟩ := by decide
  have defined (subtree : Tree) (member : subtree ∈ tree.subtrees) :
      ∃ value, subtree.assess table = .ok value :=
    Tree.exists_value_of_mem_subtrees whole member
  have settled : ∀ ref ∈ tree.symbolRefs, table.valueOf ref ≠ .unknown := by decide
  have sound (subtree : Tree) (member : subtree ∈ tree.subtrees)
      (_ : subtree.hasExternal table = false) := defined subtree member
  rcases @Expression.evaluate_external_or_undefined expression tree table .strict rfl rfl rfl
    freeOfNul settled (by decide) sound (by decide) with
    ⟨external, -⟩ | ⟨subtree, member, error, -, undefined, -⟩
  · exact external
  · obtain ⟨value, assessed⟩ := defined subtree member
    rw [undefined.assess_eq] at assessed
    cases assessed

/-- As a divisor the external `X` counts as zero too, so `1 / X` fails, though nothing
without `X` does.  The linker would have divided by the address of `X`. -/
theorem evaluate_external_divisor :
    let imported : SymbolRef := { name := "X", external := false, root := false }
    let tree : Tree := .binary .divide (.address (.absolute 1)) (.symbol imported)
    let expression : Expression :=
      { source := "1 / X", parts := tree.postOrder, isByte := false, isPostfix := true }
    let table : SymbolTable := { entries := [("X", .external)] }
    Expression.toPostfix
        { source := "1 / X"
          parts := [.number 1, .operator (.binary .divide), .symbol imported]
          isByte := false
          isPostfix := false } = (.ok (), expression) ∧
      (∀ ref ∈ tree.symbolRefs, table.valueOf ref ≠ .unknown) ∧
      tree.hasExternal table = true ∧
      (∀ subtree ∈ tree.subtrees, subtree.hasExternal table = false →
        ∃ value, subtree.assess table = .ok value) ∧
      expression.evaluate .strict table =
        (.error (.error (.divisionByZero (.binary .divide))), table) ∧
      expression.evaluate .bestEffort table =
        (.error (.error (.divisionByZero (.binary .divide))), table) ∧
      expression.linkItems table =
        (.ok [.address (.absolute 1), .external "X", .operator 10, .store false], table) := by
  intro imported tree expression table
  refine ⟨by decide, by decide, by decide, ?_, by decide, by decide, by decide⟩
  intro subtree member free
  rcases List.mem_cons.1 member with rfl | below
  · exact absurd free (by decide)
  · rcases List.mem_cons.1 below with rfl | last
    · exact ⟨.absolute 1, rfl⟩
    · cases List.mem_singleton.1 last
      exact absurd free (by decide)

end RelocExpr
