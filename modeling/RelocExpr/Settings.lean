import RelocExpr.Charset

/-!
# Settings

How numbers without a radix mark and string literals are read.
-/

namespace RelocExpr

/-- A radix that digits and letters suffice for. -/
structure Radix where
  base : Nat
  two_le : 2 ≤ base := by omega
  le_sixteen : base ≤ 16 := by omega
  deriving DecidableEq, Repr

namespace Radix

def ten : Radix := { base := 10 }

instance : Inhabited Radix := ⟨ten⟩

end Radix

/-- Why there are no settings. -/
inductive SettingsError where
  /-- Numbers can not be written in this radix. -/
  | invalidRadix (base : Nat)
  /-- The text is not a settings text. -/
  | malformed
  /-- There is no text of this name. -/
  | unreadable (path : String)
  deriving DecidableEq, Repr

/-- The message for the user. -/
def SettingsError.message : SettingsError → String
  | .invalidRadix base =>
      "invalid default radix " ++ toString base ++ ": must be between 2 and 16"
  | .malformed => "invalid expression config"
  | .unreadable path => "failed to read '" ++ path ++ "'"

/-- The radix of a base from 2 to 16. -/
def Radix.ofNat (base : Nat) : Except SettingsError Radix :=
  if valid : 2 ≤ base ∧ base ≤ 16 then
    .ok { base, two_le := valid.1, le_sixteen := valid.2 }
  else
    .error (.invalidRadix base)

/-- How numbers and string literals are read. -/
structure Settings where
  /-- Radix of numbers that do not name theirs. -/
  radix : Radix := .ten
  charset : Charset := .ascii
  /-- A backslash begins an escape inside double quotes. -/
  escapes : Bool := false
  deriving DecidableEq, Repr, Inhabited

end RelocExpr
