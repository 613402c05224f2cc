import Mathlib.Tactic.Common
import RelocExpr.Evaluation
import RelocExpr.Proofs.Segments
import RelocExpr.Proofs.Tree

/-!
# Evaluation of trees

A tree is evaluated in two steps.  First every `TYPE` of a literal, of a symbol or
of a `TYPE` that has been replaced itself is replaced by its tag, from left to
right.  Then every operator is applied to the values of its operands, the left one
first.  Both steps stop at the first symbol without a value, and the second one
also at the first operator without a result.

Evaluating an expression in postfix order is evaluating the tree of its parts.
-/

namespace RelocExpr

/-- Why there is no value: the evaluation comes to something else, or there is an
error. -/
inductive Halt where
  | outcome (evaluation : Evaluation)
  | error (error : ExpressionError)
  deriving DecidableEq, Repr

/-- What the whole evaluation comes to when it stops. -/
def Halt.result : Halt → Except ExpressionError Evaluation
  | .outcome evaluation => .ok evaluation
  | .error cause => .error cause

/-- The symbols, and whether an external one has been met. -/
structure Walk where
  table : SymbolTable
  external : Bool
  deriving DecidableEq, Repr

namespace Tree

/-- `TYPE` of an operand in which it has been replaced already.  There is none yet
when a symbol has to have a value and does not. -/
def typeTag? (mode : EvaluationMode) (operand : Tree) (table : SymbolTable) :
    Option Tree × SymbolTable :=
  let tag (segment : Segment) : Tree :=
    .address (.absolute (0x20 ||| segment.index.toUInt16))
  match operand with
  | .address value => (some (tag value.segment), table)
  | .symbol ref =>
      let mentioned := table.mention ref
      match mentioned.valueOf ref with
      | .known value => (some (tag value.segment), mentioned)
      | .external => (some (.address (.absolute 0x80)), mentioned)
      | .unknown =>
          if mode = .strict then (some (.address (.absolute 0)), mentioned)
          else (none, mentioned)
  | compound => (some (.unary .type compound), table)

/-- Replace each `TYPE` that has a tag, from left to right. -/
def replaceTypes (mode : EvaluationMode) :
    Tree → SymbolTable → Option Tree × SymbolTable
  | .address value, table => (some (.address value), table)
  | .symbol ref, table => (some (.symbol ref), table)
  | .unary op operand, table =>
      match operand.replaceTypes mode table with
      | (none, table) => (none, table)
      | (some replaced, table) =>
          if op = .type then typeTag? mode replaced table
          else (some (.unary op replaced), table)
  | .binary op left right, table =>
      match left.replaceTypes mode table with
      | (none, table) => (none, table)
      | (some left, table) =>
          match right.replaceTypes mode table with
          | (none, table) => (none, table)
          | (some right, table) => (some (.binary op left right), table)

/-- The result of an operator.  A relocatable byte is left to the linker, unless the
operator has no effect. -/
def settle (isByte : Bool) (operator : Operator) (result : Address) :
    Except Halt Address :=
  if isByte = true ∧ operator ≠ .unary .plus ∧ result.isAbsolute = false then
    .error (.outcome .deferred)
  else .ok result

/-- The value of a tree, with zero for each external symbol. -/
def value (isByte : Bool) (mode : EvaluationMode) :
    Tree → Walk → Except Halt Address × Walk
  | .address value, walk => (.ok value, walk)
  | .symbol ref, walk =>
      let mentioned := walk.table.mention ref
      match mentioned.valueOf ref with
      | .known value => (.ok value, { walk with table := mentioned })
      | .external => (.ok (.absolute 0), { table := mentioned, external := true })
      | .unknown =>
          if mode = .strict then
            (.error (.error (.unknownSymbol (mentioned.qualifiedName ref))),
              { walk with table := mentioned })
          else (.error (.outcome .undecided), { walk with table := mentioned })
  | .unary op operand, walk =>
      match operand.value isByte mode walk with
      | (.error halt, walk) => (.error halt, walk)
      | (.ok operand, walk) => (settle isByte (.unary op) (op.apply operand), walk)
  | .binary op left right, walk =>
      match left.value isByte mode walk with
      | (.error halt, walk) => (.error halt, walk)
      | (.ok left, walk) =>
          match right.value isByte mode walk with
          | (.error halt, walk) => (.error halt, walk)
          | (.ok right, walk) =>
              match op.apply left right with
              | .error error => (.error (.error error), walk)
              | .ok result => (settle isByte (.binary op) result, walk)

/-- Replace the types of a tree and evaluate what is left. -/
def run (tree : Tree) (isByte : Bool) (mode : EvaluationMode) (table : SymbolTable) :
    Except ExpressionError Evaluation × SymbolTable :=
  match tree.replaceTypes mode table with
  | (none, table) => (.ok .undecided, table)
  | (some replaced, table) =>
      match replaced.value isByte mode { table, external := false } with
      | (.error halt, walk) => (halt.result, walk.table)
      | (.ok value, walk) =>
          (.ok (if walk.external then .external else .resolved value), walk.table)

/-- Evaluate a tree.  Every symbol is mentioned before a strict evaluation, and a
lookahead does not go on when there is one. -/
def evaluate (tree : Tree) (isByte : Bool) (mode : EvaluationMode)
    (table : SymbolTable) : Except ExpressionError Evaluation × SymbolTable :=
  match mode with
  | .strict => tree.run isByte .strict (table.mentionAll tree.symbolRefs)
  | .bestEffort => tree.run isByte .bestEffort table
  | .lookahead =>
      if tree.symbolRefs = [] then tree.run isByte .lookahead table
      else (.ok .undecided, table)

/-! ## Replacing types -/

/-- In a lookahead a tree is evaluated only if it has no symbols. -/
def Admits (tree : Tree) (mode : EvaluationMode) : Prop :=
  mode = .lookahead → tree.symbolRefs = []

theorem foldTypes_of_ne {part : Part} (other : part ≠ .operator (.unary .type))
    (mode : EvaluationMode) (done rest : List Part) (table : SymbolTable) :
    foldTypes mode done (part :: rest) table =
      foldTypes mode (part :: done) rest table := by
  rw [foldTypes.eq_def]
  exact if_neg other

/-- `TYPE` has a tag, or it stays where it is. -/
theorem typeTag?_cases {mode : EvaluationMode} {operand tagged : Tree}
    {table mentioned : SymbolTable}
    (found : typeTag? mode operand table = (some tagged, mentioned)) :
    (∃ tag, tagged = .address tag) ∨ tagged = .unary .type operand := by
  cases operand with
  | address value =>
      cases found
      exact .inl ⟨_, rfl⟩
  | symbol ref =>
      simp only [typeTag?] at found
      split at found
      · cases found
        exact .inl ⟨_, rfl⟩
      · cases found
        exact .inl ⟨_, rfl⟩
      · split at found
        · cases found
          exact .inl ⟨_, rfl⟩
        · cases found
  | unary | binary =>
      cases found
      exact .inr rfl

namespace Admits

variable {mode : EvaluationMode}

theorem of_ne_lookahead {tree : Tree} (other : mode ≠ .lookahead) : tree.Admits mode := by
  intro lookahead
  contradiction

theorem operand {op : UnaryOp} {operand : Tree}
    (admitted : (unary op operand).Admits mode) : operand.Admits mode :=
  admitted

theorem left {op : BinaryOp} {left right : Tree}
    (admitted : (binary op left right).Admits mode) : left.Admits mode := by
  intro lookahead
  exact (List.append_eq_nil_iff.1 (admitted lookahead)).1

theorem right {op : BinaryOp} {left right : Tree}
    (admitted : (binary op left right).Admits mode) : right.Admits mode := by
  intro lookahead
  exact (List.append_eq_nil_iff.1 (admitted lookahead)).2

end Admits

/-- Replacing types brings no symbols in. -/
theorem symbolRefs_replaceTypes {mode : EvaluationMode} {tree replaced : Tree}
    {table mentioned : SymbolTable}
    (found : tree.replaceTypes mode table = (some replaced, mentioned)) :
    replaced.symbolRefs.Sublist tree.symbolRefs := by
  induction tree generalizing replaced table mentioned with
  | address value =>
      cases found
      exact .refl _
  | symbol ref =>
      cases found
      exact .refl _
  | unary op operand ih =>
      rw [replaceTypes] at found
      split at found
      · cases found
      · next innerFound =>
          have inner := ih innerFound
          split at found
          · rcases typeTag?_cases found with ⟨tag, rfl⟩ | rfl
            · exact List.nil_sublist _
            · exact inner
          · cases found
            exact inner
  | binary op left right leftIH rightIH =>
      rw [replaceTypes] at found
      split at found
      · cases found
      · next leftFound =>
          split at found
          · cases found
          · next rightFound =>
              cases found
              exact (leftIH leftFound).append (rightIH rightFound)

theorem Admits.replaceTypes {mode : EvaluationMode} {tree replaced : Tree}
    {table mentioned : SymbolTable} (admitted : tree.Admits mode)
    (found : tree.replaceTypes mode table = (some replaced, mentioned)) :
    replaced.Admits mode := by
  intro lookahead
  have none := symbolRefs_replaceTypes found
  rw [admitted lookahead] at none
  exact List.sublist_nil.1 none

theorem FreeOfNul.replaceTypes {mode : EvaluationMode} {tree replaced : Tree}
    {table mentioned : SymbolTable} (freeOfNul : tree.FreeOfNul)
    (found : tree.replaceTypes mode table = (some replaced, mentioned)) :
    replaced.FreeOfNul := by
  induction tree generalizing replaced table mentioned with
  | address value =>
      cases found
      trivial
  | symbol ref =>
      cases found
      trivial
  | unary op operand ih =>
      rw [Tree.replaceTypes] at found
      split at found
      · cases found
      · next innerFound =>
          have inner := ih freeOfNul.2 innerFound
          split at found
          · rcases typeTag?_cases found with ⟨tag, rfl⟩ | rfl
            · trivial
            · exact ⟨by decide, inner⟩
          · cases found
            exact ⟨freeOfNul.1, inner⟩
  | binary op left right leftIH rightIH =>
      rw [Tree.replaceTypes] at found
      split at found
      · cases found
      · next leftFound =>
          split at found
          · cases found
          · next rightFound =>
              cases found
              exact ⟨leftIH freeOfNul.1 leftFound, rightIH freeOfNul.2 rightFound⟩

theorem foldTypes_type {mode : EvaluationMode} {operand : Tree}
    (admitted : operand.Admits mode) (done rest : List Part) (table : SymbolTable) :
    foldTypes mode (operand.postOrder.reverse ++ done)
        (.operator (.unary .type) :: rest) table =
      match typeTag? mode operand table with
      | (none, table) => (none, table)
      | (some tagged, table) =>
          foldTypes mode (tagged.postOrder.reverse ++ done) rest table := by
  cases operand with
  | address value => rfl
  | symbol ref =>
      simp only [postOrder, List.reverse_singleton, List.singleton_append, foldTypes,
        typeTag?, if_true]
      cases mode with
      | lookahead => simpa [symbolRefs] using admitted rfl
      | strict | bestEffort =>
          simp only [SymbolTable.find?]
          cases (table.mention ref).valueOf ref <;> rfl
  | unary op operand => simp [postOrder, foldTypes, typeTag?]
  | binary op left right => simp [postOrder, foldTypes, typeTag?]

/-- Replacing types among the parts is replacing them in the tree. -/
theorem foldTypes_postOrder {mode : EvaluationMode} {tree : Tree}
    (admitted : tree.Admits mode) (done rest : List Part) (table : SymbolTable) :
    foldTypes mode done (tree.postOrder ++ rest) table =
      match tree.replaceTypes mode table with
      | (none, table) => (none, table)
      | (some replaced, table) =>
          foldTypes mode (replaced.postOrder.reverse ++ done) rest table := by
  induction tree generalizing done rest table with
  | address value => exact foldTypes_of_ne (by simp) ..
  | symbol ref => exact foldTypes_of_ne (by simp) ..
  | unary op operand ih =>
      rw [postOrder, List.append_assoc, List.singleton_append, ih admitted.operand,
        replaceTypes]
      cases found : operand.replaceTypes mode table with
      | mk outcome mentioned =>
          cases outcome with
          | none => rfl
          | some replaced =>
              by_cases type : op = .type
              · subst type
                exact foldTypes_type (admitted.operand.replaceTypes found) ..
              · simp only [if_neg type, postOrder, List.reverse_append]
                exact foldTypes_of_ne (by simpa using type) ..
  | binary op left right leftIH rightIH =>
      rw [postOrder, List.append_assoc, List.append_assoc, List.singleton_append,
        leftIH admitted.left, replaceTypes]
      cases left.replaceTypes mode table with
      | mk leftOutcome leftMentioned =>
          cases leftOutcome with
          | none => rfl
          | some leftReplaced =>
              simp only
              rw [rightIH admitted.right]
              cases right.replaceTypes mode leftMentioned with
              | mk rightOutcome rightMentioned =>
                  cases rightOutcome with
                  | none => rfl
                  | some rightReplaced =>
                      simp only [postOrder, List.reverse_append, ← List.append_assoc]
                      exact foldTypes_of_ne (by simp) ..

/-! ## Values -/

/-- The result of an operator is on the stack, or it is left to the linker. -/
theorem pushResult_eq_settle {operator : Operator} {operands : List Address}
    {result : Address}
    (absolute : (∀ operand ∈ operands, operand.isAbsolute = true) →
      result.isAbsolute = true)
    (linkable : result.isAbsolute = false → operator ≠ .unary .plus →
      operator.linkCode.isSome = true)
    (isByte : Bool) (stack : List Address) :
    pushResult isByte operator operands result stack =
      match settle isByte operator result with
      | .error _ => .ok none
      | .ok value => .ok (some (value :: stack)) := by
  rw [pushResult, settle, overflowsByte]
  by_cases resultAbsolute : result.isAbsolute = true
  · simp [resultAbsolute]
  · have relocatable : operands.any (fun operand => !operand.isAbsolute) = true := by
      rw [List.any_eq_not_all_not]
      simpa using fun all => resultAbsolute (absolute all)
    rw [Bool.not_eq_true] at resultAbsolute
    by_cases identity : operator = .unary .plus
    · simp [identity, Operator.isIdentity]
    · obtain ⟨code, known⟩ := Option.isSome_iff_exists.1 (linkable resultAbsolute identity)
      cases isByte <;>
        simp [resultAbsolute, identity, Operator.isIdentity, known, relocatable]

theorem pushResult_unary {op : UnaryOp} (notNul : op ≠ .nul) (isByte : Bool)
    (operand : Address) (stack : List Address) :
    pushResult isByte (.unary op) [operand] (op.apply operand) stack =
      match settle isByte (.unary op) (op.apply operand) with
      | .error _ => .ok none
      | .ok value => .ok (some (value :: stack)) := by
  apply pushResult_eq_settle
  · intro absolute
    exact op.isAbsolute_apply (absolute operand (List.mem_singleton_self _))
  · intro relocatable other
    cases op with
    | plus | nul => contradiction
    | type => contradiction
    | minus | not | high | low => rfl

theorem pushResult_binary {op : BinaryOp} {left right result : Address}
    (applied : op.apply left right = .ok result) (isByte : Bool) (stack : List Address) :
    pushResult isByte (.binary op) [left, right] result stack =
      match settle isByte (.binary op) result with
      | .error _ => .ok none
      | .ok value => .ok (some (value :: stack)) := by
  apply pushResult_eq_settle
  · intro absolute
    exact BinaryOp.isAbsolute_of_apply applied (absolute left (by simp))
      (absolute right (by simp))
  · intro _ _
    rfl

/-- A result that is not on the stack is left to the linker. -/
theorem eq_deferred_of_settle {isByte : Bool} {operator : Operator} {result : Address}
    {halt : Halt} (settled : settle isByte operator result = .error halt) :
    halt = .outcome .deferred := by
  rw [settle] at settled
  split at settled
  · exact (Except.error.inj settled).symm
  · cases settled

/-- Running the parts of a tree puts its value on the stack. -/
theorem runParts_postOrder (expression : Expression) {mode : EvaluationMode} {tree : Tree}
    (admitted : tree.Admits mode) (freeOfNul : tree.FreeOfNul) (rest : List Part)
    (stack : List Address) (external : Bool) (table : SymbolTable) :
    runParts expression mode (tree.postOrder ++ rest) stack external table =
      match tree.value expression.isByte mode { table, external } with
      | (.error halt, walk) => (halt.result.mapError .error, walk.table)
      | (.ok value, walk) =>
          runParts expression mode rest (value :: stack) walk.external walk.table := by
  induction tree generalizing rest stack external table with
  | address value => rfl
  | symbol ref =>
      simp only [postOrder, List.singleton_append, runParts, value]
      cases mode with
      | lookahead => simpa [symbolRefs] using admitted rfl
      | strict | bestEffort =>
          simp only [SymbolTable.find?]
          cases (table.mention ref).valueOf ref <;> rfl
  | unary op operand ih =>
      rw [postOrder, List.append_assoc, List.singleton_append,
        ih admitted.operand freeOfNul.2, value]
      cases operand.value expression.isByte mode { table, external } with
      | mk outcome walk =>
          cases outcome with
          | error halt => rfl
          | ok operand =>
              simp only [runParts, applyOperator, pushResult_unary freeOfNul.1]
              cases settled : settle expression.isByte (.unary op) (op.apply operand) with
              | error halt =>
                  rw [eq_deferred_of_settle settled]
                  rfl
              | ok value => rfl
  | binary op left right leftIH rightIH =>
      rw [postOrder, List.append_assoc, List.append_assoc, List.singleton_append,
        leftIH admitted.left freeOfNul.1, value]
      cases left.value expression.isByte mode { table, external } with
      | mk leftOutcome leftWalk =>
          cases leftOutcome with
          | error halt => rfl
          | ok left =>
              simp only
              rw [rightIH admitted.right freeOfNul.2]
              cases right.value expression.isByte mode leftWalk with
              | mk rightOutcome rightWalk =>
                  cases rightOutcome with
                  | error halt => rfl
                  | ok right =>
                      simp only [runParts, applyOperator]
                      cases applied : op.apply left right with
                      | error error => rfl
                      | ok result =>
                          simp only [pushResult_binary applied]
                          cases settled : settle expression.isByte (.binary op) result with
                          | error halt =>
                              rw [eq_deferred_of_settle settled]
                              rfl
                          | ok value => rfl

end Tree

/-! ## Evaluation of expressions -/

namespace Expression

variable {expression : Expression} {tree : Tree}

/-- Running the parts of a tree is evaluating it. -/
theorem run_postOrder (ordered : expression.isPostfix = true)
    (parts : expression.parts = tree.postOrder) (freeOfNul : tree.FreeOfNul)
    {mode : EvaluationMode} (admitted : tree.Admits mode) (table : SymbolTable) :
    expression.run mode table =
      ((tree.run expression.isByte mode table).1.mapError .error,
        (tree.run expression.isByte mode table).2) := by
  have nonempty : tree.postOrder.isEmpty = false := by
    simpa using tree.postOrder_ne_nil
  have folded := Tree.foldTypes_postOrder admitted [] [] table
  rw [List.append_nil] at folded
  rw [Expression.run, ordered, parts, nonempty, folded, Tree.run]
  cases found : tree.replaceTypes mode table with
  | mk outcome mentioned =>
      cases outcome with
      | none => rfl
      | some replaced =>
          have walked := Tree.runParts_postOrder expression
            (admitted.replaceTypes found) (freeOfNul.replaceTypes found) [] [] false
            mentioned
          rw [List.append_nil] at walked
          simp only [foldTypes, List.append_nil, List.reverse_reverse, walked]
          cases replaced.value expression.isByte mode ⟨mentioned, false⟩ with
          | mk outcome walk => cases outcome <;> rfl

/-- An expression whose parts are the post-order of a tree evaluates as the tree
does, in every mode, in both sizes and with every table. -/
theorem evaluate_eq_evaluate_tree (ordered : expression.isPostfix = true)
    (parts : expression.parts = tree.postOrder) (freeOfNul : tree.FreeOfNul)
    (mode : EvaluationMode) (table : SymbolTable) :
    expression.evaluate mode table =
      ((tree.evaluate expression.isByte mode table).1.mapError .error,
        (tree.evaluate expression.isByte mode table).2) := by
  have refs := symbolRefs_of_postOrder parts
  cases mode with
  | strict =>
      rw [evaluate, refs]
      exact run_postOrder ordered parts freeOfNul (.of_ne_lookahead (by decide)) _
  | bestEffort =>
      exact run_postOrder ordered parts freeOfNul (.of_ne_lookahead (by decide)) _
  | lookahead =>
      rw [evaluate, hasSymbols, refs, Tree.evaluate]
      by_cases none : tree.symbolRefs = []
      · simp only [none, List.isEmpty_nil, Bool.not_true, Bool.false_eq_true, if_false,
          if_true]
        exact run_postOrder ordered parts freeOfNul (fun _ => none) _
      · simp [none, Except.mapError]

end Expression

/-- In `TYPE X## + S` the type of the external symbol is known, and the byte at the
relocatable sum is left to the linker. -/
theorem evaluate_eq_evaluate_tree_of_relocatable_byte :
    let imported : SymbolRef := { name := "X", external := true, root := false }
    let start : SymbolRef := { name := "S", external := false, root := false }
    let tree : Tree := .binary .plus (.unary .type (.symbol imported)) (.symbol start)
    let expression : Expression :=
      { source := "TYPE X## + S", parts := tree.postOrder, isByte := true, isPostfix := true }
    let table : SymbolTable := { entries := [("S", .known ⟨.code, 3⟩)] }
    expression.evaluate .strict table =
      (.ok .deferred, { table with entries := table.entries ++ [("X", .external)] }) := by
  intro imported start tree expression table
  have freeOfNul : tree.FreeOfNul := ⟨⟨by decide, trivial⟩, trivial⟩
  rw [Expression.evaluate_eq_evaluate_tree rfl rfl freeOfNul .strict table]
  decide

end RelocExpr
