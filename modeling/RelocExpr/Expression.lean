import RelocExpr.Lexeme

/-!
# Expressions

An expression keeps the text it was read from and its parts, which stand in the
order of that text until they are put into postfix order.
-/

namespace RelocExpr

/-- The parts of an expression, in the order of its text or in postfix order. -/
structure Expression where
  /-- The text without the blanks at its ends. -/
  source : String
  parts : List Part
  /-- The value is stored as one byte and not as a word. -/
  isByte : Bool
  /-- The parts stand in postfix order. -/
  isPostfix : Bool
  deriving DecidableEq, Repr

namespace Expression

/-- No parts at all, which are in every order. -/
def empty : Expression :=
  { source := "", parts := [], isByte := false, isPostfix := true }

instance : Inhabited Expression := ⟨empty⟩

/-- Read a text; blanks at its ends do not count. -/
def read (reading : Reading) (isByte : Bool) (text : String) :
    Except ExpressionError Expression :=
  let source := Text.trim Text.isBlank text.toList
  match readParts reading false source with
  | .error error => .error error
  | .ok parts =>
      .ok { source := .ofList source, parts, isByte, isPostfix := false }

/-- The parts as listings show them, with spaces between them. -/
def text (expression : Expression) : String :=
  " ".intercalate (expression.parts.map Part.text)

/-- The symbols that the expression names, in their order and each time. -/
def symbolRefs (expression : Expression) : List SymbolRef :=
  expression.parts.filterMap Part.symbol?

/-- The expression names some symbol. -/
def hasSymbols (expression : Expression) : Bool :=
  !expression.symbolRefs.isEmpty

/-- Some part is this operator. -/
def hasOperator (expression : Expression) (operator : Operator) : Bool :=
  expression.parts.any fun part => part.operator? = some operator

/-- The bytes of a string that is the whole expression. -/
def bytes? (expression : Expression) : Option (List UInt8) :=
  match expression.parts with
  | [.bytes content _] => some content
  | _ => none

/-- The same expression, stored as a byte or as a word. -/
def withSize (expression : Expression) (isByte : Bool) : Expression :=
  { expression with isByte }

@[simp] theorem parts_withSize (expression : Expression) (isByte : Bool) :
    (expression.withSize isByte).parts = expression.parts := rfl

@[simp] theorem isByte_withSize (expression : Expression) (isByte : Bool) :
    (expression.withSize isByte).isByte = isByte := rfl

@[simp] theorem isPostfix_withSize (expression : Expression) (isByte : Bool) :
    (expression.withSize isByte).isPostfix = expression.isPostfix := rfl

end Expression

end RelocExpr
