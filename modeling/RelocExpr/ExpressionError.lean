import RelocExpr.Charset
import RelocExpr.Operator

/-!
# Errors in expressions

An error names its cause and quotes what is needed to explain it.  Errors of
reading also have a column, the number of bytes before the offending text plus
one, and so a span in the text that was read.
-/

namespace RelocExpr

/-- Why an expression can not be read, ordered, evaluated or linked. -/
inductive ExpressionError where
  /-- No lexeme begins with the character. -/
  | strayCharacter (character : Char) (column : Nat)
  /-- The literal is not a number of its radix. -/
  | malformedNumber (literal : String) (column : Nat)
  /-- The text ends inside a string literal. -/
  | openString (column : Nat)
  /-- No escape is written like this. -/
  | malformedEscape (sequence : String) (column : Nat)
  /-- The charset does not have the character. -/
  | unencodable (character : Char) (charset : Charset) (column : Nat)
  /-- A string literal of more than two bytes stands for a number. -/
  | longString (literal : String) (column : Nat)
  /-- A part can not follow the one before it. -/
  | misplaced (token previous : String) (position : Nat)
  /-- The last part is an operator. -/
  | danglingOperator (operator : String)
  /-- The only part is no operand. -/
  | loneToken (token : String)
  /-- A string of more than two bytes stands among other parts. -/
  | bytesNotAlone
  /-- A string of more than two bytes has no value. -/
  | bytesNotEvaluable (literal : String)
  | unopenedParenthesis
  | unclosedParenthesis
  /-- The operator is not defined for operands of these segments. -/
  | segmentMismatch (operator : Operator) (left right : String)
  | divisionByZero (operator : Operator)
  /-- The operator can not be left to the linker, and its result is relocatable
  in an expression of one byte. -/
  | byteRelocatable (operator : Operator)
  /-- The linker does not know the operator. -/
  | notLinkable (operator : Operator)
  /-- A symbol has no value when it has to have one. -/
  | unknownSymbol (name : String)
  deriving DecidableEq, Repr, Inhabited

/-- The stage that an error belongs to. -/
inductive ErrorCategory where
  | lexical
  | semantic
  | unknownSymbol
  deriving DecidableEq, Repr

/-- The category as the note of a report gives it. -/
def ErrorCategory.note : ErrorCategory → String
  | .lexical => "syntax error"
  | .semantic => "invalid expression"
  | .unknownSymbol => "unresolved symbol"

/-- A range of bytes of a text. -/
structure Span where
  start : Nat
  stop : Nat
  deriving DecidableEq, Repr

namespace ExpressionError

def category : ExpressionError → ErrorCategory
  | .strayCharacter .. | .malformedNumber .. | .openString ..
  | .malformedEscape .. | .unencodable .. | .longString .. => .lexical
  | .unknownSymbol .. => .unknownSymbol
  | _ => .semantic

/-- Where the offending text begins, counted from one, for errors of reading. -/
def column? : ExpressionError → Option Nat
  | .strayCharacter _ column | .malformedNumber _ column | .openString column
  | .malformedEscape _ column | .unencodable _ _ column
  | .longString _ column => some column
  | _ => none

/-- The error as it is when the text is preceded by some more bytes. -/
def shift (bytes : Nat) : ExpressionError → ExpressionError
  | .strayCharacter character column => .strayCharacter character (bytes + column)
  | .malformedNumber literal column => .malformedNumber literal (bytes + column)
  | .openString column => .openString (bytes + column)
  | .malformedEscape sequence column => .malformedEscape sequence (bytes + column)
  | .unencodable character charset column =>
      .unencodable character charset (bytes + column)
  | .longString literal column => .longString literal (bytes + column)
  | error => error

@[simp] theorem shift_zero (error : ExpressionError) : error.shift 0 = error := by
  cases error <;> simp [shift]

@[simp] theorem shift_shift (outer inner : Nat) (error : ExpressionError) :
    (error.shift inner).shift outer = error.shift (outer + inner) := by
  cases error <;> simp [shift, Nat.add_assoc]

@[simp] theorem column?_shift (bytes : Nat) (error : ExpressionError) :
    (error.shift bytes).column? = error.column?.map (bytes + ·) := by
  cases error <;> rfl

@[simp] theorem category_shift (bytes : Nat) (error : ExpressionError) :
    (error.shift bytes).category = error.category := by
  cases error <;> rfl

private def quoted (text : String) : String := "'" ++ text ++ "'"

/-- The message for the user. -/
def message : ExpressionError → String
  | .strayCharacter character column =>
      "unexpected character " ++ quoted (.singleton character) ++
        " at column " ++ toString column
  | .malformedNumber literal column =>
      "invalid number " ++ quoted literal ++ " at column " ++ toString column
  | .openString column =>
      "unterminated string literal at column " ++ toString column
  | .malformedEscape sequence column =>
      "invalid escape sequence " ++ quoted sequence ++
        " at column " ++ toString column
  | .unencodable character charset column =>
      "character " ++ quoted (.singleton character) ++ " at column " ++
        toString column ++ " can't be represented in " ++ charset.name
  | .longString literal _ =>
      "the string " ++ literal ++ " generates more than two bytes"
  | .misplaced token previous position =>
      "invalid expression: " ++ token ++ " (item " ++ toString position ++
        ") can't be preceded by " ++ previous
  | .danglingOperator operator =>
      "invalid expression: it can't end with the operator " ++ operator
  | .loneToken token =>
      "invalid expression: " ++ token ++ " can't be the only item"
  | .bytesNotAlone =>
      "invalid expression: a string of more than two bytes must be alone"
  | .bytesNotEvaluable literal =>
      "the string " ++ literal ++
        " generates more than two bytes and only has a value as DEFB data"
  | .unopenedParenthesis => "invalid expression: missing opening parenthesis"
  | .unclosedParenthesis => "invalid expression: missing closing parenthesis"
  | .segmentMismatch operator left right =>
      "operator " ++ operator.name ++ " is not allowed on " ++ left ++ " and " ++
        right ++ " values"
  | .divisionByZero operator => "division by zero in operator " ++ operator.name
  | .byteRelocatable operator =>
      "operator " ++ operator.name ++ " is not allowed in expressions involving " ++
        "relocatable addresses that evaluate to a single byte"
  | .notLinkable operator =>
      "operator " ++ operator.name ++
        " can't be used in expressions evaluated at link time"
  | .unknownSymbol name => "unknown symbol: " ++ name

/-- Number of bytes of the offending text, given how many bytes there are from
its first one to the end of the text that was read. -/
def extent (remaining : Nat) : ExpressionError → Nat
  | .strayCharacter character _ | .unencodable character _ _ => character.utf8Size
  | .malformedNumber text _ | .malformedEscape text _ | .longString text _ =>
      Text.byteWidth text.toList
  | .openString _ => remaining
  | _ => 1

/-- The bytes of the offending text inside the text that was read.  The span is
cut off at the end of that text, and there is none when nothing is left of it. -/
def span? (source : List Char) (error : ExpressionError) : Option Span :=
  match error.column? with
  | some (start + 1) =>
      let size := Text.byteWidth source
      let stop := min (start + max (error.extent (size - start)) 1) size
      if start < stop then some { start, stop } else none
  | _ => none

/-- A span is not empty and lies inside the text. -/
theorem span?_bounds {source : List Char} {error : ExpressionError} {span : Span}
    (found : error.span? source = some span) :
    span.start < span.stop ∧ span.stop ≤ Text.byteWidth source := by
  unfold span? at found
  split at found
  · dsimp only at found
    split at found
    · cases found
      exact ⟨by assumption, Nat.min_le_right _ _⟩
    · contradiction
  · contradiction

end ExpressionError

end RelocExpr
