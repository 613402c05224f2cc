import RelocExpr.Except
import RelocExpr.Proofs.Stability

/-!
# Divisions by zero

An evaluation ends in a division by zero only if the expression has a quotient or a
remainder among its parts.
-/

namespace RelocExpr

variable {expression : Expression} {parts more : List Part} {stack : List Address}
  {external : Bool} {table mentioned : SymbolTable} {mode : EvaluationMode}
  {outcome : Except Fault Evaluation}

/-- The evaluation ends in a division by zero. -/
def DividesByZero (outcome : Except Fault Evaluation) : Prop :=
  ∃ operator, outcome = .error (.error (.divisionByZero operator))

/-- Some part is a quotient or a remainder. -/
def HasDivision (parts : List Part) : Prop :=
  .operator (.binary .divide) ∈ parts ∨ .operator (.binary .mod) ∈ parts

theorem HasDivision.mono (divides : HasDivision parts)
    (subset : ∀ operator, .operator operator ∈ parts → .operator operator ∈ more) :
    HasDivision more := by
  rcases divides with quotient | remainder
  · exact .inl (subset _ quotient)
  · exact .inr (subset _ remainder)

theorem hasDivision_of_applyOperator {operator cause : Operator}
    (failed : applyOperator expression operator stack =
      .error (.error (.divisionByZero cause))) (rest : List Part) :
    HasDivision (.operator operator :: rest) := by
  have notPushed {isByte : Bool} {operands below : List Address} {result : Address} :
      (pushResult isByte operator operands result below).mapError Fault.error ≠
        .error (.error (.divisionByZero cause)) := by
    intro pushed
    obtain ⟨error, refused, equal⟩ := Except.mapError_eq_error_iff.1 pushed
    cases equal
    cases (pushResult_eq_error refused).2
  rw [applyOperator.eq_def] at failed
  split at failed
  · exact absurd failed notPushed
  · split at failed
    · next divided =>
        cases failed
        rcases (BinaryOp.divides_of_apply divided).1 with rfl | rfl
        · exact .inl (List.mem_cons_self ..)
        · exact .inr (List.mem_cons_self ..)
    · exact absurd failed notPushed
  · cases failed

theorem hasDivision_of_runParts
    (divides : DividesByZero (runParts expression mode parts stack external table).1) :
    HasDivision parts := by
  have tail {part : Part} {rest : List Part} (divides : HasDivision rest) :
      HasDivision (part :: rest) :=
    divides.mono fun _ member => List.mem_cons_of_mem part member
  obtain ⟨cause, failed⟩ := divides
  fun_induction runParts expression mode parts stack external table with
  | case1 | case2 | case4 | case7 | case9 | case11 | case12 => cases failed
  | case3 address rest stack external table ih => exact tail (ih failed)
  | case5 ref rest stack external table address middle found ih
  | case6 ref rest stack external table middle found ih => exact tail (ih failed)
  | case8 operator rest stack external table fault applied =>
      cases failed
      exact hasDivision_of_applyOperator applied rest
  | case10 operator rest stack external table result applied ih => exact tail (ih failed)

namespace Expression

theorem hasDivision_of_run (divides : DividesByZero (expression.run mode table).1) :
    HasDivision expression.parts := by
  rw [run] at divides
  split at divides
  · simp [DividesByZero] at divides
  · split at divides
    · simp [DividesByZero] at divides
    · split at divides
      · simp [DividesByZero] at divides
      · next folds =>
          apply (hasDivision_of_runParts divides).mono
          intro operator member
          exact mem_of_foldTypes (by simp) folds member

/-- An expression that divides by zero has a division. -/
theorem hasDivision_of_evaluate (divides : DividesByZero (expression.evaluate mode table).1) :
    HasDivision expression.parts := by
  cases mode with
  | strict => exact hasDivision_of_run divides
  | bestEffort => exact hasDivision_of_run divides
  | lookahead =>
      rw [evaluate] at divides
      split at divides
      · simp [DividesByZero] at divides
      · exact hasDivision_of_run divides

end Expression

end RelocExpr
