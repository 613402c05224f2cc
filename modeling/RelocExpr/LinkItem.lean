import RelocExpr.Evaluation

/-!
# Link items

An expression that has to wait for the linker is written to the object file as a
program in postfix order, followed by the operator that stores its value.  What
the linker does not know is computed beforehand, which is possible when its
operands are absolute addresses.
-/

namespace RelocExpr

/-- One item of an expression that the linker computes. -/
inductive LinkItem where
  | address (address : Address)
  | external (name : String)
  | operator (code : UInt8)
  deriving DecidableEq, Repr, Inhabited

namespace LinkItem

/-- Stores the value as a byte. -/
def storeByte : UInt8 := 1

/-- Stores the value as a word. -/
def storeWord : UInt8 := 2

/-- The item that ends an expression of a size. -/
def store (isByte : Bool) : LinkItem :=
  .operator (if isByte then storeByte else storeWord)

/-- The item as listings show it. -/
def text : LinkItem → String
  | .address value => value.text
  | .external name => "EXTERNAL " ++ name
  | .operator code =>
      let shown := "OPERATOR " ++ toString code.toNat
      if code = storeByte then shown ++ " (store as byte)"
      else if code = storeWord then shown ++ " (store as word)"
      else
        match Operator.ofLinkCode? code with
        | some known => shown ++ " (" ++ known.name ++ ")"
        | none => shown

end LinkItem

/-- The items of an operand, and its value where it can be known before the
program is linked. -/
structure LinkOperand where
  items : List LinkItem
  value? : Option Address
  deriving DecidableEq, Repr

namespace LinkOperand

/-- An operand that is an address. -/
def known (address : Address) : LinkOperand :=
  { items := [.address address], value? := some address }

/-- An operand that another module defines. -/
def external (name : String) : LinkOperand :=
  { items := [.external name], value? := none }

/-- A unary operator is left to the linker if the linker knows it; else it is
applied right away, which needs an absolute address. -/
def applyUnary (op : UnaryOp) (operand : LinkOperand) :
    Except ExpressionError LinkOperand :=
  match op.linkCode with
  | some code =>
      .ok { items := operand.items ++ [.operator code]
            value? := operand.value?.map op.apply }
  | none =>
      match operand.value? with
      | some value =>
          if value.isAbsolute then .ok (known (op.apply value))
          else .error (.notLinkable (.unary op))
      | none => .error (.notLinkable (.unary op))

/-- A binary operator is always left to the linker.  Its value is not known
when it is not defined, which the linker will find out too. -/
def applyBinary (op : BinaryOp) (left right : LinkOperand) : LinkOperand :=
  { items := left.items ++ right.items ++ [.operator op.linkCode]
    value? :=
      left.value?.bind fun leftValue =>
        right.value?.bind fun rightValue =>
          (op.apply leftValue rightValue).toOption }

end LinkOperand

/-- Apply an operator to the operands on top of the stack.  The unary plus has
no effect. -/
def linkOperator (source : String) (operator : Operator)
    (stack : List LinkOperand) : Except Fault (List LinkOperand) :=
  match operator, stack with
  | .unary .plus, stack => .ok stack
  | .unary op, operand :: below =>
      match LinkOperand.applyUnary op operand with
      | .error error => .error (.error error)
      | .ok result => .ok (result :: below)
  | .binary op, right :: left :: below =>
      .ok (.applyBinary op left right :: below)
  | _, _ => .error (.defect (.missingOperand source))

/-- Turn parts in postfix order into the operands that they leave on a stack.
Every symbol has to be known or external. -/
def linkParts (source : String) :
    List Part → List LinkOperand → SymbolTable →
      Except Fault (List LinkOperand) × SymbolTable
  | [], stack, table => (.ok stack, table)
  | .address address :: rest, stack, table =>
      linkParts source rest (.known address :: stack) table
  | .symbol ref :: rest, stack, table =>
      match table.find? .strict ref with
      | (some (.known address), mentioned) =>
          linkParts source rest (.known address :: stack) mentioned
      | (some .external, mentioned) =>
          linkParts source rest
            (.external (table.qualifiedName ref) :: stack) mentioned
      | (some .unknown, mentioned) =>
          (.error (.error (.unknownSymbol (table.qualifiedName ref))), mentioned)
      | (none, mentioned) => (.error (.defect .undecidedSymbol), mentioned)
  | .operator operator :: rest, stack, table =>
      match linkOperator source operator stack with
      | .error fault => (.error fault, table)
      | .ok stack => linkParts source rest stack table
  | .bytes _ literal :: _, _, table =>
      (.error (.error (.bytesNotEvaluable literal)), table)
  | part :: _, _, table => (.error (.defect (.parenthesis part.text)), table)

/-- The items of the one operand that is left.  Without parts the value is
zero. -/
def finishItems (source : String) (isByte : Bool) :
    List LinkOperand → Except Fault (List LinkItem)
  | [] => .ok [.address (.absolute 0), .store isByte]
  | [operand] => .ok (operand.items ++ [.store isByte])
  | stack => .error (.defect (.leftoverValues source stack.length))

/-- The link items of an expression in postfix order; its symbols are
mentioned as far as they are looked at. -/
def Expression.linkItems (expression : Expression) (table : SymbolTable) :
    Except Fault (List LinkItem) × SymbolTable :=
  if !expression.isPostfix then
    (.error (.defect (.linkedUnordered expression.source)), table)
  else
    match foldTypes .strict [] expression.parts table with
    | (none, mentioned) => (.error (.defect .undecidedSymbol), mentioned)
    | (some parts, mentioned) =>
        match linkParts expression.source parts [] mentioned with
        | (.error fault, mentioned) => (.error fault, mentioned)
        | (.ok stack, mentioned) =>
            (finishItems expression.source expression.isByte stack, mentioned)

end RelocExpr
