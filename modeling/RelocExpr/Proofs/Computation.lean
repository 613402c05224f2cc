import RelocExpr.Proofs.TypeTags

/-!
# Computing a tree whose symbols are known

When every symbol has an address, only operators decide what a tree comes to.  Its
evaluation as a word computes it and leaves the table alone, and so does the
replacement of types when the symbols directly under a `TYPE` are known.
-/

namespace RelocExpr

/-- Apply an operator to results; the left one comes first, also when it is an
error. -/
def BinaryOp.applyResults (op : BinaryOp) (left right : Except ExpressionError Address) :
    Except ExpressionError Address :=
  match left with
  | .error error => .error error
  | .ok left =>
      match right with
      | .error error => .error error
      | .ok right => op.apply left right

namespace BinaryOp

variable {op : BinaryOp} {left right : Except ExpressionError Address} {result : Address}
  {error : ExpressionError}

theorem applyResults_eq_ok_iff :
    op.applyResults left right = .ok result ↔
      ∃ leftValue rightValue, left = .ok leftValue ∧ right = .ok rightValue ∧
        op.apply leftValue rightValue = .ok result := by
  cases left <;> cases right <;> simp [applyResults]

theorem applyResults_eq_error_iff :
    op.applyResults left right = .error error ↔
      left = .error error ∨
        ∃ leftValue, left = .ok leftValue ∧
          (right = .error error ∨
            ∃ rightValue, right = .ok rightValue ∧
              op.apply leftValue rightValue = .error error) := by
  cases left <;> cases right <;> simp [applyResults]

end BinaryOp

namespace SymbolTable

/-- What a symbol counts as: its address if it is known, and zero if it is external. -/
def standIn (table : SymbolTable) (ref : SymbolRef) : Address :=
  (table.valueOf ref).address?.getD (.absolute 0)

/-- Some of the symbols is external. -/
def anyExternal (table : SymbolTable) (refs : List SymbolRef) : Bool :=
  refs.any fun ref => table.valueOf ref = .external

theorem standIn_of_known {table : SymbolTable} {ref : SymbolRef} {address : Address}
    (known : table.valueOf ref = .known address) : table.standIn ref = address := by
  rw [standIn, known]
  rfl

@[simp] theorem anyExternal_append (table : SymbolTable) (first second : List SymbolRef) :
    table.anyExternal (first ++ second) =
      (table.anyExternal first || table.anyExternal second) :=
  List.any_append

end SymbolTable

namespace Tree

/-- The value of a tree, given the addresses of its symbols. -/
def compute (addressOf : SymbolRef → Address) : Tree → Except ExpressionError Address
  | .address value => .ok value
  | .symbol ref => .ok (addressOf ref)
  | .unary op operand => (operand.compute addressOf).map op.apply
  | .binary op left right =>
      op.applyResults (left.compute addressOf) (right.compute addressOf)

/-- The errors of a computation come from its binary operators. -/
theorem compute_eq_error_cases {addressOf : SymbolRef → Address} {tree : Tree}
    {error : ExpressionError} (failed : tree.compute addressOf = .error error) :
    (∃ operator left right, error = .segmentMismatch operator left right) ∨
      ∃ operator, error = .divisionByZero operator := by
  induction tree with
  | address value => cases failed
  | symbol ref => cases failed
  | unary op operand ih =>
      rw [compute, Except.map_eq_error_iff] at failed
      exact ih failed
  | binary op left right leftIH rightIH =>
      rcases BinaryOp.applyResults_eq_error_iff.1 failed with
        leftFailed | ⟨leftValue, -, rightFailed | ⟨rightValue, -, undefined⟩⟩
      · exact leftIH leftFailed
      · exact rightIH rightFailed
      · rcases BinaryOp.apply_eq_error_cases undefined with ⟨left, right, rfl⟩ | rfl
        · exact .inl ⟨_, _, _, rfl⟩
        · exact .inr ⟨_, rfl⟩

/-- Only the addresses of the symbols of a tree count. -/
theorem compute_congr {first second : SymbolRef → Address} {tree : Tree}
    (same : ∀ ref ∈ tree.symbolRefs, first ref = second ref) :
    tree.compute first = tree.compute second := by
  induction tree with
  | address value => rfl
  | symbol ref => rw [compute, compute, same ref (List.mem_singleton_self ref)]
  | unary op operand ih => rw [compute, compute, ih same]
  | binary op left right leftIH rightIH =>
      have leftSame (ref : SymbolRef) (member : ref ∈ left.symbolRefs) :=
        same ref (List.mem_append_left _ member)
      have rightSame (ref : SymbolRef) (member : ref ∈ right.symbolRefs) :=
        same ref (List.mem_append_right _ member)
      rw [compute, compute, leftIH leftSame, rightIH rightSame]

/-- A word is computed with zero for its external symbols, and it is remembered whether
there were some. -/
theorem value_of_settled {table : SymbolTable} {tree : Tree}
    (settled : ∀ ref ∈ tree.symbolRefs, table.valueOf ref ≠ .unknown)
    (mode : EvaluationMode) (external : Bool) :
    ∃ met, tree.value false mode { table, external } =
        ((tree.compute table.standIn).mapError .error, { table, external := met }) ∧
      (∀ value, tree.compute table.standIn = .ok value →
        met = (external || table.anyExternal tree.symbolRefs)) ∧
      (table.anyExternal tree.symbolRefs = false → met = external) := by
  have settle_word (operator : Operator) (result : Address) :
      settle false operator result = .ok result := by
    simp [settle]
  induction tree generalizing external with
  | address value => exact ⟨external, rfl, by simp [symbolRefs, SymbolTable.anyExternal]⟩
  | symbol ref =>
      have mentioned := SymbolTable.mention_eq_self (settled ref (List.mem_singleton_self ref))
      simp only [value, mentioned, compute, symbolRefs, SymbolTable.standIn]
      cases found : table.valueOf ref with
      | known address => exact ⟨external, rfl, by simp [SymbolTable.anyExternal, found]⟩
      | external => exact ⟨true, rfl, by simp [SymbolTable.anyExternal, found]⟩
      | unknown => exact absurd found (settled ref (List.mem_singleton_self ref))
  | unary op operand ih =>
      obtain ⟨met, found, whenDone, whenNone⟩ := ih settled external
      refine ⟨met, ?_, ?_, whenNone⟩
      · rw [value, found, compute]
        cases operand.compute table.standIn with
        | error error => rfl
        | ok operand => simp only [Except.mapError, settle_word]; rfl
      · intro value computed
        rw [compute, Except.map_eq_ok_iff] at computed
        obtain ⟨inner, innerComputed, -⟩ := computed
        exact whenDone inner innerComputed
  | binary op left right leftIH rightIH =>
      have leftSettled (ref : SymbolRef) (member : ref ∈ left.symbolRefs) :=
        settled ref (List.mem_append_left _ member)
      have rightSettled (ref : SymbolRef) (member : ref ∈ right.symbolRefs) :=
        settled ref (List.mem_append_right _ member)
      obtain ⟨leftMet, leftFound, leftDone, leftNone⟩ := leftIH leftSettled external
      obtain ⟨met, rightFound, rightDone, rightNone⟩ := rightIH rightSettled leftMet
      simp only [value, leftFound, compute, BinaryOp.applyResults, symbolRefs,
        SymbolTable.anyExternal_append, Bool.or_eq_false_iff]
      cases leftComputed : left.compute table.standIn with
      | error error => exact ⟨leftMet, rfl, by simp, fun none => leftNone none.1⟩
      | ok leftValue =>
          -- The right operand is evaluated after the left one has been.
          have metLeft := leftDone leftValue leftComputed
          simp only [Except.mapError, rightFound]
          refine ⟨met, ?_, ?_, fun none => (rightNone none.2).trans (leftNone none.1)⟩
          · cases right.compute table.standIn with
            | error error => rfl
            | ok rightValue =>
                simp only
                cases op.apply leftValue rightValue with
                | error error => rfl
                | ok result => simp only [settle_word]
          · intro value computed
            cases rightComputed : right.compute table.standIn with
            | error error => simp [rightComputed] at computed
            | ok rightValue =>
                rw [rightDone rightValue rightComputed, metLeft, Bool.or_assoc]

theorem value_of_known {table : SymbolTable} {addressOf : SymbolRef → Address}
    {tree : Tree}
    (known : ∀ ref ∈ tree.symbolRefs, table.valueOf ref = .known (addressOf ref))
    (mode : EvaluationMode) (external : Bool) :
    tree.value false mode { table, external } =
      ((tree.compute addressOf).mapError .error, { table, external }) := by
  have settled (ref : SymbolRef) (member : ref ∈ tree.symbolRefs) :
      table.valueOf ref ≠ .unknown := by
    simp [known ref member]
  have none : table.anyExternal tree.symbolRefs = false := by
    simp +contextual [SymbolTable.anyExternal, known]
  have same : tree.compute table.standIn = tree.compute addressOf :=
    compute_congr fun ref member => SymbolTable.standIn_of_known (known ref member)
  obtain ⟨met, found, -, whenNone⟩ := value_of_settled settled mode external
  rw [found, whenNone none, same]

/-! ## Known symbols under a type -/

/-- Two tables that know the same addresses for the symbols directly under a `TYPE`
have them replaced alike.  The other symbols stay. -/
theorem replaceTypes_of_known {tree : Tree} {table other : SymbolTable}
    (known : ∀ ref ∈ tree.typedRefs, ∃ value,
      table.valueOf ref = .known value ∧ other.valueOf ref = .known value)
    (mode : EvaluationMode) :
    ∃ replaced, tree.replaceTypes mode table = (some replaced, table) ∧
      tree.replaceTypes mode other = (some replaced, other) ∧
      ∀ ref ∈ tree.symbolRefs, ref ∈ tree.typedRefs ∨ ref ∈ replaced.symbolRefs := by
  have tableSettled (ref : SymbolRef) (member : ref ∈ tree.typedRefs) :
      table.valueOf ref ≠ .unknown := by
    rcases known ref member with ⟨value, found, -⟩
    simp [found]
  have otherSettled (ref : SymbolRef) (member : ref ∈ tree.typedRefs) :
      other.valueOf ref ≠ .unknown := by
    rcases known ref member with ⟨value, -, found⟩
    simp [found]
  have same : tree.tagged other = tree.tagged table := by
    apply tagged_congr
    intro ref member
    rcases known ref member with ⟨value, found, otherFound⟩
    rw [found, otherFound]
  refine ⟨tree.tagged table, replaceTypes_of_settled tableSettled mode, ?_, ?_⟩
  · rw [replaceTypes_of_settled otherSettled, same]
  · intro ref member
    rw [symbolRefs_tagged]
    exact mem_symbolRefs_iff.1 member

theorem exists_replaceTypes_of_known {tree : Tree} {table : SymbolTable}
    (known : ∀ ref ∈ tree.typedRefs, ∃ value, table.valueOf ref = .known value)
    (mode : EvaluationMode) :
    ∃ replaced, tree.replaceTypes mode table = (some replaced, table) := by
  have alike (ref : SymbolRef) (member : ref ∈ tree.typedRefs) :
      ∃ value, table.valueOf ref = .known value ∧ table.valueOf ref = .known value :=
    (known ref member).imp fun _ found => ⟨found, found⟩
  rcases replaceTypes_of_known alike mode with ⟨replaced, found, -, -⟩
  exact ⟨replaced, found⟩

end Tree

/-! ## Words with known symbols -/

/-- A word whose symbols are known comes to what its tree computes. -/
theorem Expression.evaluate_of_known {expression : Expression} {tree : Tree}
    (ordered : expression.isPostfix = true) (word : expression.isByte = false)
    (parts : expression.parts = tree.postOrder) (freeOfNul : tree.FreeOfNul)
    {table : SymbolTable} {addressOf : SymbolRef → Address}
    (known : ∀ ref ∈ tree.symbolRefs, table.valueOf ref = .known (addressOf ref))
    {replaced : Tree} (found : tree.replaceTypes .strict table = (some replaced, table)) :
    expression.evaluate .strict table =
      (((replaced.compute addressOf).map .resolved).mapError .error, table) := by
  have settled (ref : SymbolRef) (member : ref ∈ tree.symbolRefs) :
      table.valueOf ref ≠ .unknown := by
    rw [known ref member]
    simp
  have replacedKnown (ref : SymbolRef) (member : ref ∈ replaced.symbolRefs) :=
    known ref ((Tree.symbolRefs_replaceTypes found).subset member)
  have admitted : tree.Admits .strict := .of_ne_lookahead (by decide)
  rw [evaluate, symbolRefs_of_postOrder parts, SymbolTable.mentionAll_eq_self settled,
    run_postOrder ordered parts freeOfNul admitted, word, Tree.run, found]
  simp only [Tree.value_of_known replacedKnown]
  cases replaced.compute addressOf <;> rfl

end RelocExpr
