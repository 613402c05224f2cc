import RelocExpr.ExpressionError

/-!
# Defects

A defect is no fault of an expression but a misuse of this library, or a breach of
what its operations keep.  An expression that has been put into postfix order can
be evaluated and linked without one.
-/

namespace RelocExpr

/-- A misuse of the library, or something that can not be. -/
inductive Defect where
  /-- An expression was evaluated before it was put into postfix order. -/
  | evaluatedUnordered (source : String)
  /-- An expression was linked before it was put into postfix order. -/
  | linkedUnordered (source : String)
  /-- A binary operator was applied to one operand, or a unary one to two. -/
  | wrongArity (operator : Operator)
  /-- An operator comes before its operands. -/
  | missingOperand (source : String)
  /-- There is a parenthesis among parts in postfix order. -/
  | parenthesis (token : String)
  /-- More than one value is left when all operators are applied. -/
  | leftoverValues (source : String) (count : Nat)
  /-- The value of a symbol was left open although it has to be known. -/
  | undecidedSymbol
  /-- A span begins or ends inside a character. -/
  | splitCharacter (offset : Nat)
  deriving DecidableEq, Repr

namespace Defect

def message : Defect → String
  | .evaluatedUnordered source =>
      "expression '" ++ source ++ "' evaluated before postfixization"
  | .linkedUnordered source =>
      "expression '" ++ source ++
        "' converted to link items before postfixization"
  | .wrongArity operator =>
      "operator " ++ operator.name ++
        (if operator.isUnary then " is unary" else " is binary")
  | .missingOperand source =>
      "postfix expression '" ++ source ++ "' is missing an operand"
  | .parenthesis token =>
      "'" ++ token ++ "' can't appear in a postfixed expression"
  | .leftoverValues source count =>
      "postfix expression '" ++ source ++ "' left " ++ toString count ++
        " values on the stack"
  | .undecidedSymbol => "strict symbol lookup halted"
  | .splitCharacter offset =>
      "byte offset " ++ toString offset ++ " is inside a character"

end Defect

/-- Why there is no result: an error in the expression, or a defect. -/
inductive Fault where
  | error (error : ExpressionError)
  | defect (defect : Defect)
  deriving DecidableEq, Repr

end RelocExpr
