import RelocExpr.LinkItem
import RelocExpr.Proofs.Computation

/-!
# Programs for the linker

The linker runs link items on a stack of addresses, with an address for each
external name.  The items of a tree are built from the items of its subtrees: those
of its operands come first, and an operator is left to the linker where it has a
code.
-/

namespace RelocExpr

/-! ## The linker -/

/-- Why the linker stops: an operator has no result, or the items are no program. -/
inductive LinkerStop where
  | undefined (error : ExpressionError)
  | malformed
  deriving DecidableEq, Repr

/-- Apply an operator to the addresses on top of the stack. -/
def runOperator : Operator → List Address → Except LinkerStop (List Address)
  | .unary op, operand :: below => .ok (op.apply operand :: below)
  | .binary op, right :: left :: below =>
      match op.apply left right with
      | .error error => .error (.undefined error)
      | .ok result => .ok (result :: below)
  | _, _ => .error .malformed

/-- Run items on a stack, with an address for each external name. -/
def runItems (assign : String → Address) :
    List LinkItem → List Address → Except LinkerStop (List Address)
  | [], stack => .ok stack
  | .address value :: rest, stack => runItems assign rest (value :: stack)
  | .external name :: rest, stack => runItems assign rest (assign name :: stack)
  | .operator code :: rest, stack =>
      match Operator.ofLinkCode? code with
      | none => .error .malformed
      | some operator =>
          match runOperator operator stack with
          | .error stop => .error stop
          | .ok stack => runItems assign rest stack

/-- The address that a program leaves alone on the stack. -/
def runProgram (assign : String → Address) (program : List LinkItem) :
    Except LinkerStop Address :=
  match runItems assign program [] with
  | .ok [value] => .ok value
  | .ok _ => .error .malformed
  | .error stop => .error stop

/-- The items compute a result, whatever comes after them and is below it. -/
def Computes (assign : String → Address) (items : List LinkItem)
    (result : Except ExpressionError Address) : Prop :=
  ∀ rest stack, runItems assign (items ++ rest) stack =
    match result with
    | .ok value => runItems assign rest (value :: stack)
    | .error error => .error (.undefined error)

namespace Computes

variable {assign : String → Address} {items left right : List LinkItem}

theorem runProgram_eq {result : Except ExpressionError Address}
    (computes : Computes assign items result) :
    runProgram assign items = result.mapError .undefined := by
  have whole := computes [] []
  rw [List.append_nil] at whole
  rw [runProgram, whole]
  cases result <;> rfl

theorem address (value : Address) : Computes assign [.address value] (.ok value) := by
  intro rest stack
  rfl

theorem external (name : String) :
    Computes assign [.external name] (.ok (assign name)) := by
  intro rest stack
  rfl

theorem unary {op : UnaryOp} {code : UInt8} {result : Except ExpressionError Address}
    (known : op.linkCode = some code) (operand : Computes assign items result) :
    Computes assign (items ++ [.operator code]) (result.map op.apply) := by
  intro rest stack
  rw [List.append_assoc, operand]
  cases result with
  | error error => rfl
  | ok value =>
      have found : Operator.ofLinkCode? code = some (.unary op) :=
        Operator.ofLinkCode?_linkCode known
      simp only [List.singleton_append, runItems, found]
      rfl

theorem binary {op : BinaryOp} {leftResult rightResult : Except ExpressionError Address}
    (leftComputes : Computes assign left leftResult)
    (rightComputes : Computes assign right rightResult) :
    Computes assign (left ++ right ++ [.operator op.linkCode])
      (op.applyResults leftResult rightResult) := by
  intro rest stack
  rw [List.append_assoc, List.append_assoc, leftComputes]
  cases leftResult with
  | error error => rfl
  | ok leftValue =>
      simp only
      rw [rightComputes]
      cases rightResult with
      | error error => rfl
      | ok rightValue =>
          have found : Operator.ofLinkCode? op.linkCode = some (.binary op) :=
            Operator.ofLinkCode?_linkCode rfl
          simp only [List.singleton_append, runItems, found, runOperator,
            BinaryOp.applyResults]
          cases op.apply leftValue rightValue <;> rfl

end Computes

/-! ## Items of trees -/

namespace Tree

/-- The items of a tree in which types have been replaced, and its value where it is
known.  Its symbols are mentioned. -/
def link : Tree → SymbolTable → Except ExpressionError LinkOperand × SymbolTable
  | .address value, table => (.ok (.known value), table)
  | .symbol ref, table =>
      let mentioned := table.mention ref
      match mentioned.valueOf ref with
      | .known value => (.ok (.known value), mentioned)
      | .external => (.ok (.external (mentioned.qualifiedName ref)), mentioned)
      | .unknown => (.error (.unknownSymbol (mentioned.qualifiedName ref)), mentioned)
  | .unary op operand, table =>
      match operand.link table with
      | (.error error, table) => (.error error, table)
      | (.ok operand, table) =>
          (if op = .plus then .ok operand else LinkOperand.applyUnary op operand, table)
  | .binary op left right, table =>
      match left.link table with
      | (.error error, table) => (.error error, table)
      | (.ok left, table) =>
          match right.link table with
          | (.error error, table) => (.error error, table)
          | (.ok right, table) => (.ok (.applyBinary op left right), table)

theorem linkOperator_unary {op : UnaryOp} (other : op ≠ .plus) (source : String)
    (operand : LinkOperand) (below : List LinkOperand) :
    linkOperator source (.unary op) (operand :: below) =
      match LinkOperand.applyUnary op operand with
      | .error error => .error (.error error)
      | .ok result => .ok (result :: below) := by
  cases op with
  | plus => contradiction
  | _ => rfl

/-- Linking the parts of a tree puts its items on the stack. -/
theorem linkParts_postOrder (source : String) (tree : Tree) (rest : List Part)
    (stack : List LinkOperand) (table : SymbolTable) :
    linkParts source (tree.postOrder ++ rest) stack table =
      match tree.link table with
      | (.error error, table) => (.error (.error error), table)
      | (.ok operand, table) => linkParts source rest (operand :: stack) table := by
  induction tree generalizing rest stack table with
  | address value => rfl
  | symbol ref =>
      simp only [postOrder, List.singleton_append, linkParts, link, SymbolTable.find?]
      cases (table.mention ref).valueOf ref <;> rfl
  | unary op operand ih =>
      rw [postOrder, List.append_assoc, List.singleton_append, ih, link]
      cases operand.link table with
      | mk outcome mentioned =>
          cases outcome with
          | error error => rfl
          | ok operand =>
              by_cases identity : op = .plus
              · subst identity
                rfl
              · simp only [linkParts, linkOperator_unary identity, if_neg identity]
                cases LinkOperand.applyUnary op operand <;> rfl
  | binary op left right leftIH rightIH =>
      rw [postOrder, List.append_assoc, List.append_assoc, List.singleton_append,
        leftIH, link]
      cases left.link table with
      | mk leftOutcome leftMentioned =>
          cases leftOutcome with
          | error error => rfl
          | ok left =>
              simp only
              rw [rightIH]
              cases right.link leftMentioned with
              | mk rightOutcome rightMentioned => cases rightOutcome <;> rfl

end Tree

end RelocExpr
