import RelocExpr.Expression

/-!
# Trees of expressions

A tree says which operands every operator has.  Its post-order is what is left of
an expression when its parts are put into postfix order; parentheses have no
place in it.
-/

namespace RelocExpr

/-- An operand, or an operator with its operands. -/
inductive Tree where
  | address (value : Address)
  | symbol (ref : SymbolRef)
  | unary (op : UnaryOp) (operand : Tree)
  | binary (op : BinaryOp) (left right : Tree)
  deriving DecidableEq, Repr

namespace Tree

/-- The parts of a tree, each operator directly after its operands. -/
def postOrder : Tree → List Part
  | .address value => [.address value]
  | .symbol ref => [.symbol ref]
  | .unary op operand => operand.postOrder ++ [.operator (.unary op)]
  | .binary op left right =>
      left.postOrder ++ right.postOrder ++ [.operator (.binary op)]

/-- The symbols of a tree from left to right, each time they occur. -/
def symbolRefs : Tree → List SymbolRef
  | .address _ => []
  | .symbol ref => [ref]
  | .unary _ operand => operand.symbolRefs
  | .binary _ left right => left.symbolRefs ++ right.symbolRefs

/-- `NUL` is none of the operators of the tree. -/
def FreeOfNul : Tree → Prop
  | .address _ | .symbol _ => True
  | .unary op operand => op ≠ .nul ∧ operand.FreeOfNul
  | .binary _ left right => left.FreeOfNul ∧ right.FreeOfNul

theorem postOrder_ne_nil (tree : Tree) : tree.postOrder ≠ [] := by
  cases tree <;> simp [postOrder]

theorem FreeOfNul.not_mem_postOrder {tree : Tree} (freeOfNul : tree.FreeOfNul) :
    .operator (.unary .nul) ∉ tree.postOrder := by
  induction tree with
  | address | symbol => simp [postOrder]
  | unary op operand ih => simp [postOrder, ih freeOfNul.2, Ne.symm freeOfNul.1]
  | binary op left right leftIH rightIH =>
      simp [postOrder, leftIH freeOfNul.1, rightIH freeOfNul.2]

theorem FreeOfNul.of_not_mem_postOrder {tree : Tree}
    (absent : .operator (.unary .nul) ∉ tree.postOrder) : tree.FreeOfNul := by
  induction tree with
  | address | symbol => trivial
  | unary op operand ih =>
      simp only [postOrder, List.mem_append, List.mem_singleton, not_or] at absent
      constructor
      · rintro rfl
        exact absent.2 rfl
      · exact ih absent.1
  | binary op left right leftIH rightIH =>
      simp only [postOrder, List.mem_append, not_or] at absent
      exact ⟨leftIH absent.1.1, rightIH absent.1.2⟩

/-- The post-order keeps the symbols and their order. -/
@[simp] theorem filterMap_symbol?_postOrder (tree : Tree) :
    tree.postOrder.filterMap Part.symbol? = tree.symbolRefs := by
  induction tree with
  | address => rfl
  | symbol => rfl
  | unary op operand ih => simp [postOrder, symbolRefs, ih, Part.symbol?]
  | binary op left right leftIH rightIH =>
      simp [postOrder, symbolRefs, leftIH, rightIH, Part.symbol?]

end Tree

theorem Expression.symbolRefs_of_postOrder {expression : Expression} {tree : Tree}
    (parts : expression.parts = tree.postOrder) :
    expression.symbolRefs = tree.symbolRefs := by
  rw [symbolRefs, parts, Tree.filterMap_symbol?_postOrder]

end RelocExpr
