import RelocExpr.Text

/-!
# Operators

Seven operators take one operand and sixteen take two.  An operator has a name,
a precedence, of which a lower number binds tighter, and a code under which the
linker knows it.  The linker does not know the unary plus, which has no effect,
nor `TYPE` and `NUL`.
-/

namespace RelocExpr

/-- Operators with one operand, written before it. -/
inductive UnaryOp where
  | plus
  | minus
  | not
  | high
  | low
  | type
  | nul
  deriving DecidableEq, Repr, Inhabited

/-- Operators with an operand on each side. -/
inductive BinaryOp where
  | plus
  | minus
  | times
  | divide
  | mod
  | shr
  | shl
  | eq
  | ne
  | lt
  | le
  | gt
  | ge
  | and
  | or
  | xor
  deriving DecidableEq, Repr, Inhabited

/-- An operator of either arity. -/
inductive Operator where
  | unary (op : UnaryOp)
  | binary (op : BinaryOp)
  deriving DecidableEq, Repr, Inhabited

namespace UnaryOp

/-- Every unary operator, in the order of the catalog. -/
def all : List UnaryOp :=
  [.plus, .minus, .not, .high, .low, .type, .nul]

/-- Name in messages; the signs are marked to tell them from the binary ones. -/
def name : UnaryOp → String
  | .plus => "u+"
  | .minus => "u-"
  | .not => "NOT"
  | .high => "HIGH"
  | .low => "LOW"
  | .type => "TYPE"
  | .nul => "NUL"

/-- Rank in the catalog; a unary operator binds to its operand whatever its
rank. -/
def precedence : UnaryOp → Nat
  | .plus => 3
  | .minus => 3
  | .not => 6
  | .high => 1
  | .low => 1
  | .type => 0
  | .nul => 0

/-- Code in link items, if the linker knows the operator. -/
def linkCode : UnaryOp → Option UInt8
  | .plus => none
  | .minus => some 6
  | .not => some 5
  | .high => some 3
  | .low => some 4
  | .type => none
  | .nul => none

end UnaryOp

namespace BinaryOp

/-- Every binary operator, in the order of the catalog. -/
def all : List BinaryOp :=
  [.plus, .minus, .times, .divide, .mod, .shr, .shl, .eq, .ne, .lt, .le, .gt,
   .ge, .and, .or, .xor]

/-- Name in messages, which is also the spelling in an expression. -/
def name : BinaryOp → String
  | .plus => "+"
  | .minus => "-"
  | .times => "*"
  | .divide => "/"
  | .mod => "MOD"
  | .shr => "SHR"
  | .shl => "SHL"
  | .eq => "EQ"
  | .ne => "NE"
  | .lt => "LT"
  | .le => "LE"
  | .gt => "GT"
  | .ge => "GE"
  | .and => "AND"
  | .or => "OR"
  | .xor => "XOR"

/-- Rank among binary operators; a lower one binds tighter. -/
def precedence : BinaryOp → Nat
  | .times | .divide | .mod | .shr | .shl => 2
  | .plus | .minus => 4
  | .eq | .ne | .lt | .le | .gt | .ge => 5
  | .and => 7
  | .or | .xor => 8

/-- Code in link items. -/
def linkCode : BinaryOp → UInt8
  | .minus => 7
  | .plus => 8
  | .times => 9
  | .divide => 10
  | .mod => 11
  | .shr => 12
  | .shl => 13
  | .eq => 14
  | .ne => 15
  | .lt => 16
  | .le => 17
  | .gt => 18
  | .ge => 19
  | .and => 20
  | .or => 21
  | .xor => 22

end BinaryOp

namespace Operator

/-- The catalog: the binary operators and then the unary ones. -/
def all : List Operator :=
  BinaryOp.all.map .binary ++ UnaryOp.all.map .unary

/-- Name in messages. -/
def name : Operator → String
  | .unary op => op.name
  | .binary op => op.name

/-- Rank in the catalog. -/
def precedence : Operator → Nat
  | .unary op => op.precedence
  | .binary op => op.precedence

/-- Code in link items, if the linker knows the operator. -/
def linkCode : Operator → Option UInt8
  | .unary op => op.linkCode
  | .binary op => some op.linkCode

/-- The operator takes one operand. -/
def isUnary : Operator → Bool
  | .unary _ => true
  | .binary _ => false

/-- The unary plus, whose result is always its operand. -/
def isIdentity (operator : Operator) : Bool :=
  operator = .unary .plus

/-- Operators that are spelled as words. -/
def keywords : List Operator :=
  [.binary .mod, .binary .shr, .binary .shl, .binary .eq, .binary .ne,
   .binary .lt, .binary .le, .binary .gt, .binary .ge, .binary .and,
   .binary .or, .binary .xor, .unary .not, .unary .high, .unary .low,
   .unary .type, .unary .nul]

/-- The operator that a word spells, in letters of either case. -/
def ofKeyword? (word : String) : Option Operator :=
  keywords.find? fun operator => operator.name = Text.upper word

/-- The operator that the linker knows by a code. -/
def ofLinkCode? (code : UInt8) : Option Operator :=
  all.find? fun operator => operator.linkCode = some code

theorem mem_all (operator : Operator) : operator ∈ all := by
  cases operator with
  | unary op => cases op <;> decide
  | binary op => cases op <;> decide

/-- No two operators share a link code. -/
theorem eq_of_linkCode {first second : Operator} {code : UInt8}
    (firstCode : first.linkCode = some code)
    (secondCode : second.linkCode = some code) : first = second := by
  have distinct : ∀ first ∈ all, ∀ second ∈ all,
      first.linkCode = second.linkCode → first.linkCode = none ∨ first = second := by
    decide
  have same := firstCode.trans secondCode.symm
  refine (distinct first first.mem_all second second.mem_all same).resolve_left ?_
  rw [firstCode]
  exact nofun

/-- An operator is found by its code. -/
theorem ofLinkCode?_linkCode {operator : Operator} {code : UInt8}
    (known : operator.linkCode = some code) :
    ofLinkCode? code = some operator := by
  cases found : ofLinkCode? code with
  | none =>
      have missed := List.find?_eq_none.1 found operator operator.mem_all
      exact absurd (decide_eq_true known) missed
  | some other =>
      have passes := List.find?_some found
      have otherCode : other.linkCode = some code := of_decide_eq_true passes
      exact congrArg some (eq_of_linkCode otherCode known)

end Operator

end RelocExpr
