import RelocExpr.Proofs.Correspondence

/-!
# Segments do not depend on values

Where the result of an evaluation lies, and whether there is one, is decided by the
segments of the symbols and not by their values.  Only a division by zero is a matter of
values.
-/

namespace RelocExpr

namespace Correspondence

/-- Addresses in one segment, whatever their values. -/
def sameSegment : Correspondence where
  Related address other := address.segment = other.segment
  segment_eq same := same
  number _ := rfl

/-- The segment of a result is decided by those of the operands. -/
theorem keeps_sameSegment (operator : Operator) : sameSegment.Keeps operator := by
  cases operator with
  | unary op =>
      intro operand other same
      cases op with
      | type => rfl
      | _ => exact same
  | binary op =>
      intro left right otherLeft otherRight result other leftSame rightSame applied otherApplied
      have leftSegment : left.segment = otherLeft.segment := leftSame
      have rightSegment : right.segment = otherRight.segment := rightSame
      have combined := (BinaryOp.apply_eq_ok_iff.1 applied).1
      have otherCombined := (BinaryOp.apply_eq_ok_iff.1 otherApplied).1
      rw [leftSegment, rightSegment, otherCombined] at combined
      exact (Option.some.inj combined).symm

theorem expressionRelated_sameSegment (expression : Expression) :
    sameSegment.ExpressionRelated expression expression where
  source := rfl
  isByte := rfl
  isPostfix := rfl
  parts := by
    rw [List.forall₂_same]
    intro part member
    cases part with
    | address value => exact .address rfl
    | symbol ref => exact .symbol ref
    | operator operator => exact .operator (keeps_sameSegment operator)
    | opening => exact .opening
    | closing => exact .closing
    | bytes content literal => exact .bytes content literal

end Correspondence

open Correspondence

/-- With two tables whose symbols are of one kind, and in one segment when they are
known, an expression comes to addresses in one segment, or to the same outcome or error,
unless one of the evaluations divides by zero.  Without quotients and remainders there is
no exception. -/
theorem Expression.evaluate_sameSegment (expression : Expression) (mode : EvaluationMode)
    {table other : SymbolTable} (related : sameSegment.TableRelated table other) :
    let first := (expression.evaluate mode table).1
    let second := (expression.evaluate mode other).1
    (¬DividesByZero first → ¬DividesByZero second → sameSegment.OutcomeRelated first second) ∧
      (¬HasDivision expression.parts → sameSegment.OutcomeRelated first second) := by
  intro first second
  have expressions := expressionRelated_sameSegment expression
  constructor
  · intro firstDefined secondDefined
    rcases expressions.evaluate_endsAlike mode related with divides | divides | alike
    · exact absurd divides firstDefined
    · exact absurd divides secondDefined
    · exact alike.1
  · exact expressions.evaluate_outcomeRelated mode related

/-- `START + (STOP - START) / SIZE` lies in the code segment for all values of its symbols
with a `SIZE` that is not zero. -/
theorem evaluate_sameSegment_of_midpoint :
    let symbol (name : String) : Part := .symbol { name, external := false, root := false }
    let expression : Expression :=
      { source := "START + (STOP - START) / SIZE"
        parts := [symbol "START", symbol "STOP", symbol "START", .operator (.binary .minus),
          symbol "SIZE", .operator (.binary .divide), .operator (.binary .plus)]
        isByte := false
        isPostfix := true }
    let table (start stop size : UInt16) : SymbolTable :=
      { entries := [("START", .known ⟨.code, start⟩), ("STOP", .known ⟨.code, stop⟩),
          ("SIZE", .known ⟨.absolute, size⟩)] }
    sameSegment.OutcomeRelated (expression.evaluate .strict (table 0x100 0x180 2)).1
      (expression.evaluate .strict (table 0xFFF0 7 3)).1 := by
  intro symbol expression table
  have related : sameSegment.TableRelated (table 0x100 0x180 2) (table 0xFFF0 7 3) :=
    ⟨rfl, .cons ⟨rfl, .known rfl⟩ (.cons ⟨rfl, .known rfl⟩ (.cons ⟨rfl, .known rfl⟩ .nil))⟩
  have first : (expression.evaluate .strict (table 0x100 0x180 2)).1 =
      .ok (.resolved ⟨.code, 0x140⟩) := by decide
  have second : (expression.evaluate .strict (table 0xFFF0 7 3)).1 =
      .ok (.resolved ⟨.code, 0xFFF7⟩) := by decide
  apply (expression.evaluate_sameSegment .strict related).1
  · simp [first, DividesByZero]
  · simp [second, DividesByZero]

end RelocExpr
