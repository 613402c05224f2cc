import RelocExpr.Address
import RelocExpr.Operator

/-!
# Parts of an expression

An expression is a list of parts: operands, operators and parentheses.
-/

namespace RelocExpr

/-- A symbol as an expression names it. -/
structure SymbolRef where
  /-- The name in the letters in which it is written. -/
  name : String
  /-- Marked as a symbol of another module. -/
  external : Bool
  /-- Marked as a symbol outside every module. -/
  root : Bool
  deriving DecidableEq, Repr, Inhabited

/-- The symbol with its marks. -/
def SymbolRef.text (ref : SymbolRef) : String :=
  (if ref.root then ":" else "") ++ ref.name ++
    (if ref.external then "##" else "")

/-- One part of an expression. -/
inductive Part where
  | address (value : Address)
  | symbol (ref : SymbolRef)
  | operator (op : Operator)
  | opening
  | closing
  /-- A string literal that has not become a number, with its quotes. -/
  | bytes (content : List UInt8) (literal : String)
  deriving DecidableEq, Repr, Inhabited

namespace Part

/-- A literal in the absolute segment. -/
def number (value : UInt16) : Part := .address (.absolute value)

/-- The part as listings show it. -/
def text : Part → String
  | .address value =>
      if value.isAbsolute then Text.hexWord value.value ++ "h" else value.text
  | .symbol ref => ref.text
  | .operator op => op.name
  | .opening => "("
  | .closing => ")"
  | .bytes _ literal => literal

/-- Addresses, symbols and strings have a value of their own. -/
def isOperand : Part → Bool
  | .address _ | .symbol _ | .bytes .. => true
  | _ => false

/-- The part is a string literal that has not become a number. -/
def isBytes : Part → Bool
  | .bytes .. => true
  | _ => false

/-- An operand may end with this part, so a sign after it is binary. -/
def endsOperand : Part → Bool
  | .operator _ | .opening => false
  | _ => true

/-- The symbol, if the part is one. -/
def symbol? : Part → Option SymbolRef
  | .symbol ref => some ref
  | _ => none

/-- The operator, if the part is one. -/
def operator? : Part → Option Operator
  | .operator op => some op
  | _ => none

end Part

/-- The number that a string of at most two bytes stands for, with the first
byte as the less significant one. -/
def shortString? : List UInt8 → Option UInt16
  | [] => some 0
  | [low] => some low.toUInt16
  | [low, high] => some (high.toUInt16 <<< 8 ||| low.toUInt16)
  | _ => none

end RelocExpr
