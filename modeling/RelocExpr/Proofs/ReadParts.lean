import RelocExpr.Except
import RelocExpr.Expression.Postfix

/-!
# What is read from a text

The errors of reading a text are lexical.  When `NUL` is among the parts of a text it
stands before the last of them, which is its value.
-/

namespace RelocExpr

/-! ## Expressions -/

namespace Expression

variable {reading : Reading} {isByte : Bool} {text : String} {expression : Expression}

theorem isPostfix_of_read (found : read reading isByte text = .ok expression) :
    expression.isPostfix = false := by
  simp only [read] at found
  split at found
  · cases found
  · cases found
    rfl

theorem readParts_of_read (found : read reading isByte text = .ok expression) :
    readParts reading false (Text.trim Text.isBlank text.toList) = .ok expression.parts := by
  simp only [read] at found
  split at found
  · cases found
  · next readable =>
      cases found
      exact readable

end Expression

/-! ## Errors and `NUL` -/

variable {reading : Reading} {afterOperand : Bool} {text : List Char} {parts : List Part}

theorem category_of_readParts {error : ExpressionError}
    (faulty : readParts reading afterOperand text = .error error) :
    error.category = .lexical := by
  fun_induction readParts reading afterOperand text generalizing error with
  | case1 => cases faulty
  | case2 afterOperand text first rest found blanks cause =>
      rename_i scanned
      cases faulty
      rw [ExpressionError.category_shift]
      exact Lexeme.category_of_scan scanned
  | case3 afterOperand text first rest found blanks lexeme scanned before =>
      rename_i ih
      obtain ⟨cause, later, rfl⟩ :=
        Except.mapError_eq_error_iff.1 (Except.map_eq_error_iff.1 faulty)
      rw [ExpressionError.category_shift]
      exact ih later

/-- There is no `NUL`, or it is followed by its value and nothing else. -/
theorem nul_cases_of_readParts (read : readParts reading afterOperand text = .ok parts) :
    .operator (.unary .nul) ∉ parts ∨
      ∃ before holds, .operator (.unary .nul) ∉ before ∧
        parts = before ++ [.operator (.unary .nul), .address (.truth holds)] := by
  fun_induction readParts reading afterOperand text generalizing parts with
  | case1 =>
      cases read
      exact .inl List.not_mem_nil
  | case2 => cases read
  | case3 afterOperand text first rest found blanks lexeme scanned before =>
      rename_i ih
      obtain ⟨later, readLater, rfl⟩ := Except.map_eq_ok_iff.1 read
      have readRest := Except.mapError_eq_ok_iff.1 readLater
      cases Lexeme.stands_scan scanned with
      | part notNul _ =>
          rcases ih readRest with noNul | ⟨earlier, holds, noNul, rfl⟩
          · exact .inl (by simp [Ne.symm notNul, noNul])
          · exact .inr ⟨_ :: earlier, holds, by simp [Ne.symm notNul, noNul], rfl⟩
      | nul holds taken =>
          rw [readParts_of_blank rfl] at readRest
          cases readRest
          exact .inr ⟨[], holds, List.not_mem_nil, rfl⟩

end RelocExpr
