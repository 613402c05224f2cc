import RelocExpr.Address
import RelocExpr.ExpressionError

/-!
# The algebra of addresses

A unary operator changes the value of its operand and keeps the segment, except
for `TYPE`, whose result is absolute.  For a binary operator a rule on the
segments of the operands decides whether it is defined and where its result
lies; only then the value is computed, modulo 2^16.
-/

namespace RelocExpr

/-- Which segments the operands of an operator may have, and which one its
result has. -/
inductive SegmentRule where
  /-- One operand is absolute; the result lies where the other one does. -/
  | oneAbsolute
  /-- The right operand is absolute and the result lies where the left one
  does, or both lie in one segment and the result is absolute. -/
  | difference
  /-- Both operands are absolute. -/
  | bothAbsolute
  /-- The right operand is absolute; the result lies where the left one does. -/
  | rightAbsolute
  /-- Both operands lie in one segment; the result is absolute. -/
  | sameSegment
  deriving DecidableEq, Repr

/-- The segment of the result, if the rule admits the operands. -/
def SegmentRule.combine? (rule : SegmentRule) (left right : Segment) :
    Option Segment :=
  match rule with
  | .oneAbsolute =>
      if left.isAbsolute then some right
      else if right.isAbsolute then some left
      else none
  | .difference =>
      if right.isAbsolute then some left
      else if left = right then some .absolute
      else none
  | .bothAbsolute =>
      if left.isAbsolute && right.isAbsolute then some left else none
  | .rightAbsolute => if right.isAbsolute then some left else none
  | .sameSegment => if left = right then some .absolute else none

namespace UnaryOp

/-- The result of a unary operator, which is defined for every operand. -/
def apply (op : UnaryOp) (operand : Address) : Address :=
  match op with
  | .plus | .nul => operand
  | .minus => operand.withValue (-operand.value)
  | .not => operand.withValue (~~~operand.value)
  | .high => operand.withValue operand.high.toUInt16
  | .low => operand.withValue operand.low.toUInt16
  | .type => .absolute operand.segment.typeTag

end UnaryOp

namespace BinaryOp

/-- The segments that the operator is defined for. -/
def rule : BinaryOp → SegmentRule
  | .plus | .and | .or | .xor => .oneAbsolute
  | .minus => .difference
  | .times | .shl => .bothAbsolute
  | .divide | .mod | .shr => .rightAbsolute
  | .eq | .ne | .lt | .le | .gt | .ge => .sameSegment

private def truthValue (holds : Bool) : UInt16 :=
  (Address.truth holds).value

/-- The value of the result; only a division by zero has none.  A shift by
sixteen places or more leaves nothing, and comparisons are unsigned. -/
def value? (op : BinaryOp) (left right : UInt16) : Option UInt16 :=
  match op with
  | .plus => some (left + right)
  | .minus => some (left - right)
  | .times => some (left * right)
  | .divide => if right = 0 then none else some (left / right)
  | .mod => if right = 0 then none else some (left % right)
  | .shr => some (if right < 16 then left >>> right else 0)
  | .shl => some (if right < 16 then left <<< right else 0)
  | .eq => some (truthValue (left = right))
  | .ne => some (truthValue (left ≠ right))
  | .lt => some (truthValue (left < right))
  | .le => some (truthValue (left ≤ right))
  | .gt => some (truthValue (right < left))
  | .ge => some (truthValue (right ≤ left))
  | .and => some (left &&& right)
  | .or => some (left ||| right)
  | .xor => some (left ^^^ right)

/-- The result of a binary operator.  The segments are looked at before the
values. -/
def apply (op : BinaryOp) (left right : Address) : Except ExpressionError Address :=
  match op.rule.combine? left.segment right.segment with
  | none =>
      .error (.segmentMismatch (.binary op) left.segment.description
        right.segment.description)
  | some segment =>
      match op.value? left.value right.value with
      | none => .error (.divisionByZero (.binary op))
      | some value => .ok { segment, value }

/-- The value is undefined only for a division by zero. -/
theorem value?_eq_none_iff (op : BinaryOp) (left right : UInt16) :
    op.value? left right = none ↔ (op = .divide ∨ op = .mod) ∧ right = 0 := by
  cases op <;> simp [value?]

end BinaryOp

end RelocExpr
