import RelocExpr.Algebra

/-!
# Segments of results

An operator has a result exactly when its rule admits the segments of its operands
and its value is defined.  Absolute operands have an absolute result.  Where a result
lies, and whether there is one, is the same for all operands in the same segments,
except for a division by zero.
-/

namespace RelocExpr

theorem UnaryOp.isAbsolute_apply (op : UnaryOp) {operand : Address}
    (absolute : operand.isAbsolute = true) : (op.apply operand).isAbsolute = true := by
  cases op with
  | type => rfl
  | _ => exact absolute

theorem SegmentRule.combine?_absolute (rule : SegmentRule) :
    rule.combine? .absolute .absolute = some .absolute := by
  cases rule <;> rfl

namespace BinaryOp

variable {op : BinaryOp} {left right : Address}

theorem apply_eq_ok_iff {result : Address} :
    op.apply left right = .ok result ↔
      op.rule.combine? left.segment right.segment = some result.segment ∧
        op.value? left.value right.value = some result.value := by
  rw [BinaryOp.apply]
  cases op.rule.combine? left.segment right.segment with
  | none => simp
  | some segment =>
      cases op.value? left.value right.value with
      | none => simp
      | some value =>
          rcases result with ⟨resultSegment, resultValue⟩
          simp

/-- The errors of an operator: the segments of its operands do not fit, or it
divides by zero. -/
theorem apply_eq_error_cases {error : ExpressionError}
    (failed : op.apply left right = .error error) :
    (∃ leftText rightText, error = .segmentMismatch (.binary op) leftText rightText) ∨
      error = .divisionByZero (.binary op) := by
  rw [BinaryOp.apply] at failed
  split at failed
  · cases failed
    exact .inl ⟨_, _, rfl⟩
  · split at failed
    · cases failed
      exact .inr rfl
    · cases failed

/-- Only a quotient or a remainder by zero is a division by zero. -/
theorem divides_of_apply {cause : Operator}
    (failed : op.apply left right = .error (.divisionByZero cause)) :
    (op = .divide ∨ op = .mod) ∧ right.value = 0 := by
  rw [BinaryOp.apply] at failed
  split at failed
  · cases failed
  · split at failed
    · next undefined => exact (value?_eq_none_iff op _ _).1 undefined
    · cases failed

theorem isAbsolute_of_apply {result : Address}
    (applied : op.apply left right = .ok result) (leftAbsolute : left.isAbsolute = true)
    (rightAbsolute : right.isAbsolute = true) : result.isAbsolute = true := by
  have combined := (apply_eq_ok_iff.1 applied).1
  rw [(Segment.isAbsolute_iff _).1 leftAbsolute, (Segment.isAbsolute_iff _).1 rightAbsolute,
    SegmentRule.combine?_absolute] at combined
  exact (Segment.isAbsolute_iff _).2 (Option.some.inj combined).symm

/-- For operands in the same segments an operator divides by zero, fails alike or has
results in one segment. -/
theorem apply_cases_of_segment_eq (op : BinaryOp) {otherLeft otherRight : Address}
    (leftSegment : left.segment = otherLeft.segment)
    (rightSegment : right.segment = otherRight.segment) :
    op.apply left right = .error (.divisionByZero (.binary op)) ∨
      op.apply otherLeft otherRight = .error (.divisionByZero (.binary op)) ∨
      (∃ error, op.apply left right = .error error ∧
        op.apply otherLeft otherRight = .error error) ∨
      ∃ result other, op.apply left right = .ok result ∧
        op.apply otherLeft otherRight = .ok other ∧ result.segment = other.segment := by
  rw [BinaryOp.apply, BinaryOp.apply, ← leftSegment, ← rightSegment]
  cases op.rule.combine? left.segment right.segment with
  | none => exact .inr (.inr (.inl ⟨_, rfl, rfl⟩))
  | some segment =>
      cases op.value? left.value right.value with
      | none => exact .inl rfl
      | some value =>
          cases op.value? otherLeft.value otherRight.value with
          | none => exact .inr (.inl rfl)
          | some otherValue => exact .inr (.inr (.inr ⟨_, _, rfl, rfl, rfl⟩))

end BinaryOp

end RelocExpr
