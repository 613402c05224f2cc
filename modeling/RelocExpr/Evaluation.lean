import RelocExpr.Algebra
import RelocExpr.Defect
import RelocExpr.Expression
import RelocExpr.SymbolTable

/-!
# Evaluation

The parts of an expression in postfix order are a program for a stack.  An
unknown symbol is an error, or it ends the evaluation without a result, as the
mode says.  A relocatable result in an expression of one byte is left to the
linker, and so is everything that depends on an external symbol.

Before that, `TYPE` directly after a literal or a symbol is replaced by its tag:
the segment of an external symbol is of interest even though its value is not
known.
-/

namespace RelocExpr

/-- What an evaluation without an error comes to. -/
inductive Evaluation where
  | resolved (address : Address)
  /-- A symbol has no value yet. -/
  | undecided
  /-- The linker has to compute the byte. -/
  | deferred
  /-- The value depends on symbols of other modules. -/
  | external
  deriving DecidableEq, Repr, Inhabited

/-- The address, if there is one. -/
def Evaluation.address? : Evaluation → Option Address
  | .resolved address => some address
  | _ => none

/-- What an evaluation may know of symbols. -/
inductive EvaluationMode where
  /-- Every symbol has to have a value. -/
  | strict
  /-- A symbol may be without a value; then there is no result yet. -/
  | bestEffort
  /-- There is no result when there are symbols. -/
  | lookahead
  deriving DecidableEq, Repr, Inhabited

/-! ## Symbols and their tags -/

/-- Look a symbol up, which mentions it.  Nothing is found when the mode does
not let the evaluation go on. -/
def SymbolTable.find? (table : SymbolTable) (mode : EvaluationMode)
    (ref : SymbolRef) : Option SymbolValue × SymbolTable :=
  match mode with
  | .lookahead => (none, table)
  | .strict =>
      let mentioned := table.mention ref
      (some (mentioned.valueOf ref), mentioned)
  | .bestEffort =>
      let mentioned := table.mention ref
      let value := mentioned.valueOf ref
      (if value = .unknown then none else some value, mentioned)

/-- What `TYPE` gives for a symbol: the tag of its segment if it is known, and
tags of their own for external and for unknown symbols. -/
def SymbolValue.typeTag : SymbolValue → UInt16
  | .known address => address.segment.typeTag
  | .external => 0x80
  | .unknown => 0

/-- Replace each `TYPE` directly after a literal or a symbol, and its operand,
by the tag.  The parts that are done are given with the last one first.  There
is no result when a symbol has to have a value and does not. -/
def foldTypes (mode : EvaluationMode) :
    (done : List Part) → List Part → SymbolTable →
      Option (List Part) × SymbolTable
  | done, [], table => (some done.reverse, table)
  | done, part :: rest, table =>
      if part = .operator (.unary .type) then
        match done with
        | .address address :: before =>
            foldTypes mode (.number address.segment.typeTag :: before) rest table
        | .symbol ref :: before =>
            match table.find? mode ref with
            | (none, mentioned) => (none, mentioned)
            | (some value, mentioned) =>
                foldTypes mode (.number value.typeTag :: before) rest mentioned
        | _ => foldTypes mode (part :: done) rest table
      else foldTypes mode (part :: done) rest table

/-! ## The stack -/

/-- The result of an operator must be left to the linker: it is relocatable, it
comes from a relocatable operand, and it has to fit a byte. -/
def overflowsByte (isByte : Bool) (operator : Operator) (operands : List Address)
    (result : Address) : Bool :=
  isByte && !operator.isIdentity && !result.isAbsolute &&
    operands.any fun operand => !operand.isAbsolute

/-- Put the result of an operator on the stack, unless it has to be left to the
linker. -/
def pushResult (isByte : Bool) (operator : Operator) (operands : List Address)
    (result : Address) (stack : List Address) :
    Except ExpressionError (Option (List Address)) :=
  if overflowsByte isByte operator operands result then
    match operator.linkCode with
    | some _ => .ok none
    | none => .error (.byteRelocatable operator)
  else .ok (some (result :: stack))

/-- Only a byte is refused. -/
theorem pushResult_eq_error {isByte : Bool} {operator : Operator}
    {operands stack : List Address} {result : Address} {error : ExpressionError}
    (failed : pushResult isByte operator operands result stack = .error error) :
    isByte = true ∧ error = .byteRelocatable operator := by
  unfold pushResult at failed
  split at failed
  · next overflows =>
      split at failed
      · contradiction
      · cases failed
        simp only [overflowsByte, Bool.and_eq_true] at overflows
        exact ⟨overflows.1.1.1, rfl⟩
  · contradiction

/-- Apply an operator to the operands on top of the stack.  There is no stack
any more when the result has to be left to the linker. -/
def applyOperator (expression : Expression) (operator : Operator)
    (stack : List Address) : Except Fault (Option (List Address)) :=
  match operator, stack with
  | .unary op, operand :: below =>
      (pushResult expression.isByte operator [operand] (op.apply operand)
        below).mapError .error
  | .binary op, right :: left :: below =>
      match op.apply left right with
      | .error error => .error (.error error)
      | .ok result =>
          (pushResult expression.isByte operator [left, right] result
            below).mapError .error
  | _, _ => .error (.defect (.missingOperand expression.source))

/-- Run parts in postfix order on a stack.  Whether an external symbol has been
met is remembered; it counts as zero. -/
def runParts (expression : Expression) (mode : EvaluationMode) :
    List Part → (stack : List Address) → (external : Bool) → SymbolTable →
      Except Fault Evaluation × SymbolTable
  | [], stack, external, table =>
      match stack with
      | [result] =>
          (.ok (if external then .external else .resolved result), table)
      | _ =>
          (.error (.defect (.leftoverValues expression.source stack.length)),
            table)
  | .address address :: rest, stack, external, table =>
      runParts expression mode rest (address :: stack) external table
  | .symbol ref :: rest, stack, external, table =>
      match table.find? mode ref with
      | (none, mentioned) => (.ok .undecided, mentioned)
      | (some (.known address), mentioned) =>
          runParts expression mode rest (address :: stack) external mentioned
      | (some .external, mentioned) =>
          runParts expression mode rest (.absolute 0 :: stack) true mentioned
      | (some .unknown, mentioned) =>
          (.error (.error (.unknownSymbol (table.qualifiedName ref))), mentioned)
  | .operator operator :: rest, stack, external, table =>
      match applyOperator expression operator stack with
      | .error fault => (.error fault, table)
      | .ok none => (.ok .deferred, table)
      | .ok (some stack) => runParts expression mode rest stack external table
  | .bytes _ literal :: _, _, _, table =>
      (.error (.error (.bytesNotEvaluable literal)), table)
  | part :: _, _, _, table =>
      (.error (.defect (.parenthesis part.text)), table)

/-! ## Evaluation of an expression -/

namespace Expression

/-- Evaluate an expression in postfix order.  Without parts its value is zero. -/
def run (expression : Expression) (mode : EvaluationMode) (table : SymbolTable) :
    Except Fault Evaluation × SymbolTable :=
  if !expression.isPostfix then
    (.error (.defect (.evaluatedUnordered expression.source)), table)
  else if expression.parts.isEmpty then
    (.ok (.resolved (.absolute 0)), table)
  else
    match foldTypes mode [] expression.parts table with
    | (none, mentioned) => (.ok .undecided, mentioned)
    | (some parts, mentioned) => runParts expression mode parts [] false mentioned

/-- Evaluate an expression, and mention the symbols in it.  A strict evaluation
mentions all of them first, whatever comes of it; a lookahead mentions none. -/
def evaluate (expression : Expression) (mode : EvaluationMode)
    (table : SymbolTable) : Except Fault Evaluation × SymbolTable :=
  match mode with
  | .strict => expression.run .strict (table.mentionAll expression.symbolRefs)
  | .bestEffort => expression.run .bestEffort table
  | .lookahead =>
      if expression.hasSymbols then (.ok .undecided, table)
      else expression.run .lookahead table

end Expression

end RelocExpr
