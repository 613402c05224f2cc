import RelocExpr.Text.Numeral

/-!
# Addresses

A value of sixteen bits is relative to a segment.  The absolute segment starts
at zero; where the others start is known to the linker only, so two addresses
can be compared or subtracted only inside one segment.
-/

namespace RelocExpr

/-- What the value of an address is relative to. -/
inductive Segment where
  | absolute
  | code
  | data
  /-- A block shared between modules, known by its name. -/
  | common (block : String)
  deriving DecidableEq, Repr, Inhabited

namespace Segment

/-- Number of a kind of segment, as object files and `TYPE` have it. -/
def index : Segment → UInt8
  | .absolute => 0
  | .code => 1
  | .data => 2
  | .common _ => 3

/-- Kind of a segment in words. -/
def kind : Segment → String
  | .absolute => "ABSOLUTE"
  | .code => "CODE"
  | .data => "DATA"
  | .common _ => "COMMON"

/-- Name of the block, for a common segment. -/
def block? : Segment → Option String
  | .common block => some block
  | _ => none

/-- Kind of a segment in words, with its block between slashes. -/
def description : Segment → String
  | .common block => "COMMON /" ++ block ++ "/"
  | segment => segment.kind

/-- Everything outside the absolute segment moves when the program is linked. -/
def isAbsolute : Segment → Bool
  | .absolute => true
  | _ => false

@[simp] theorem isAbsolute_iff (segment : Segment) :
    segment.isAbsolute = true ↔ segment = .absolute := by
  cases segment <;> simp [isAbsolute]

/-- What `TYPE` gives for an operand in this segment. -/
def typeTag (segment : Segment) : UInt16 :=
  0x20 ||| segment.index.toUInt16

end Segment

/-- A value of sixteen bits in a segment. -/
structure Address where
  segment : Segment
  value : UInt16
  deriving DecidableEq, Repr, Inhabited

namespace Address

/-- A value that does not depend on where anything is loaded. -/
def absolute (value : UInt16) : Address := ⟨.absolute, value⟩

/-- All ones for true and zero for false. -/
def truth (holds : Bool) : Address :=
  .absolute (if holds then 0xFFFF else 0)

/-- The address does not depend on where anything is loaded. -/
def isAbsolute (address : Address) : Bool :=
  address.segment.isAbsolute

/-- Another value in the same segment. -/
def withValue (address : Address) (value : UInt16) : Address :=
  { address with value }

/-- The less significant byte of the value. -/
def low (address : Address) : UInt8 :=
  address.value.toUInt8

/-- The more significant byte of the value. -/
def high (address : Address) : UInt8 :=
  (address.value >>> 8).toUInt8

/-- The segment in words and the value in hexadecimal. -/
def text (address : Address) : String :=
  address.segment.description ++ " " ++ Text.hexWord address.value ++ "h"

end Address

end RelocExpr
