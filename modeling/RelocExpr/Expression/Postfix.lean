import RelocExpr.Expression

/-!
# Postfix order

Before an expression is evaluated its parts are put into postfix order: every
operator stands directly after its operands, and there are no parentheses.

First the parts are simplified: `NUL` makes the part after it the whole
expression, and strings of at most two bytes become numbers.  Then each part has
to fit the one before it.  Last the operators wait on a stack for their right
operands: a binary operator lets go every unary operator before it, and every
binary one that binds at least as tight.
-/

namespace RelocExpr

/-! ## Simplification -/

/-- `NUL` and everything before it is dropped, and one part after it is kept. -/
def collapseNul (parts : List Part) : List Part :=
  match parts.dropWhile (· ≠ .operator (.unary .nul)) with
  | [] => parts
  | _ :: rest => rest.take 1

/-- Parts can be changed before or after `NUL` is looked for, if it is not changed. -/
theorem collapseNul_map {change : Part → Part}
    (keeps : ∀ part, change part = .operator (.unary .nul) ↔ part = .operator (.unary .nul))
    (parts : List Part) : collapseNul (parts.map change) = (collapseNul parts).map change := by
  have sameTest : ((fun part : Part => decide (part ≠ .operator (.unary .nul))) ∘ change) =
      fun part => decide (part ≠ .operator (.unary .nul)) := by
    funext part
    simp [keeps]
  rw [collapseNul, collapseNul, List.dropWhile_map, sameTest]
  cases parts.dropWhile fun part => decide (part ≠ .operator (.unary .nul)) with
  | nil => rfl
  | cons part rest => rw [List.map_cons, List.map_take]

/-- A string of at most two bytes becomes a number. -/
def absorbString : Part → Part
  | .bytes content literal =>
      match shortString? content with
      | some value => .number value
      | none => .bytes content literal
  | part => part

/-- The parts as they are checked and reordered. -/
def simplifyParts (parts : List Part) : List Part :=
  (collapseNul parts).map absorbString

/-! ## Neighbours -/

/-- The part as messages about its place name it. -/
def Part.description : Part → String
  | .operator op => "the operator " ++ op.name
  | .symbol ref => "the symbol " ++ ref.name
  | part => part.text

/-- An operand may begin after this part, or at the start. -/
def operandMayFollow : Option Part → Bool
  | none | some (.operator _) | some .opening => true
  | _ => false

/-- An operand has ended with this part. -/
def operandPrecedes : Option Part → Bool
  | some (.address _) | some (.symbol _) | some .closing => true
  | _ => false

/-- The part may stand after another one, or at the start. -/
def Part.mayFollow (part : Part) (previous : Option Part) : Bool :=
  match part with
  | .operator (.binary _) | .closing => operandPrecedes previous
  | _ => operandMayFollow previous

/-- Every part fits the one before it; the position of the first part is
given. -/
def checkNeighbours (previous : Option Part) (position : Nat) :
    List Part → Except ExpressionError Unit
  | [] => .ok ()
  | part :: rest =>
      if part.mayFollow previous then
        checkNeighbours (some part) (position + 1) rest
      else
        .error (.misplaced part.description
          (previous.elim "the start of the expression" Part.description) position)

/-- The last part is no operator. -/
def checkEnd (parts : List Part) : Except ExpressionError Unit :=
  match parts.getLast? with
  | some (.operator op) => .error (.danglingOperator op.name)
  | _ => .ok ()

/-- The parts make up an expression, as far as their neighbours tell.  A string
of more than two bytes has to be alone. -/
def checkParts : List Part → Except ExpressionError Unit
  | [] => .ok ()
  | [part] => if part.isOperand then .ok () else .error (.loneToken part.text)
  | parts =>
      if parts.any Part.isBytes then .error .bytesNotAlone
      else
        match checkNeighbours none 1 parts with
        | .error error => .error error
        | .ok () => checkEnd parts

/-! ## Reordering -/

/-- What waits on the stack: an operator for the end of its right operand, or
an opening parenthesis for its closing one. -/
inductive Waiting where
  | operator (op : Operator)
  | opening
  deriving DecidableEq, Repr

/-- The operator before a binary one has both its operands. -/
def BinaryOp.releases (op : BinaryOp) : Waiting → Bool
  | .operator (.unary _) => true
  | .operator (.binary waiting) => waiting.precedence ≤ op.precedence
  | .opening => false

/-- The operators that a binary operator lets go, and those that go on
waiting. -/
def BinaryOp.release (op : BinaryOp) : List Waiting → List Part × List Waiting
  | .operator waiting :: rest =>
      if op.releases (.operator waiting) then
        let (released, kept) := op.release rest
        (.operator waiting :: released, kept)
      else ([], .operator waiting :: rest)
  | stack => ([], stack)

/-- The operators since the last opening parenthesis, and what waits below
it. -/
def closeGroup? : List Waiting → Option (List Part × List Waiting)
  | .operator waiting :: rest =>
      (closeGroup? rest).map fun (released, kept) =>
        (.operator waiting :: released, kept)
  | .opening :: rest => some ([], rest)
  | [] => none

/-- At the end of the expression all operators have their operands. -/
def releaseAll : List Waiting → Except ExpressionError (List Part)
  | [] => .ok []
  | .opening :: _ => .error .unclosedParenthesis
  | .operator waiting :: rest =>
      (releaseAll rest).map (.operator waiting :: ·)

/-- The parts in postfix order, with the operators that wait so far. -/
def postfixOrder : List Part → List Waiting → Except ExpressionError (List Part)
  | [], stack => releaseAll stack
  | .opening :: rest, stack => postfixOrder rest (.opening :: stack)
  | .closing :: rest, stack =>
      match closeGroup? stack with
      | none => .error .unopenedParenthesis
      | some (released, kept) => (postfixOrder rest kept).map (released ++ ·)
  | .operator (.unary op) :: rest, stack =>
      postfixOrder rest (.operator (.unary op) :: stack)
  | .operator (.binary op) :: rest, stack =>
      let (released, kept) := op.release stack
      (postfixOrder rest (.operator (.binary op) :: kept)).map (released ++ ·)
  | operand :: rest, stack => (postfixOrder rest stack).map (operand :: ·)

/-- Check simplified parts and put them into postfix order. -/
def orderParts (parts : List Part) : Except ExpressionError (List Part) :=
  match checkParts parts with
  | .error error => .error error
  | .ok () => postfixOrder parts []

/-- Put an expression into postfix order.  It is returned with the outcome: when
it can not be ordered its parts stay in the order of the text, simplified.  An
expression in postfix order is left alone. -/
def Expression.toPostfix (expression : Expression) :
    Except ExpressionError Unit × Expression :=
  if expression.isPostfix then (.ok (), expression)
  else
    let simple := simplifyParts expression.parts
    match orderParts simple with
    | .error error => (.error error, { expression with parts := simple })
    | .ok parts => (.ok (), { expression with parts, isPostfix := true })

/-- Read a text and put its parts into postfix order. -/
def Expression.compile (reading : Reading) (isByte : Bool) (text : String) :
    Except ExpressionError Expression :=
  match Expression.read reading isByte text with
  | .error error => .error error
  | .ok expression =>
      match expression.toPostfix with
      | (.error error, _) => .error error
      | (.ok (), ordered) => .ok ordered

@[simp] theorem Expression.toPostfix_of_isPostfix {expression : Expression}
    (ordered : expression.isPostfix = true) :
    expression.toPostfix = (.ok (), expression) := by
  simp [Expression.toPostfix, ordered]

section

variable {reading : Reading} {text : String}

/-- What can not be read is not put into postfix order. -/
theorem Expression.compile_of_readParts_error {error : ExpressionError}
    (faulty : readParts reading false (Text.trim Text.isBlank text.toList) = .error error)
    (isByte : Bool) : Expression.compile reading isByte text = .error error := by
  rw [compile, read, faulty]

/-- The parts that were read are simplified and put into postfix order. -/
theorem Expression.compile_of_readParts {parts : List Part}
    (readable : readParts reading false (Text.trim Text.isBlank text.toList) = .ok parts)
    (isByte : Bool) :
    Expression.compile reading isByte text =
      (orderParts (simplifyParts parts)).map fun ordered =>
        { source := .ofList (Text.trim Text.isBlank text.toList)
          parts := ordered
          isByte
          isPostfix := true } := by
  rw [compile, read, readable]
  simp only [toPostfix, Bool.false_eq_true, if_false]
  cases orderParts (simplifyParts parts) <;> rfl

end

end RelocExpr
