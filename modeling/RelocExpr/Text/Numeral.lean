import RelocExpr.Text

/-!
# Digits in a radix

Reading keeps only the low sixteen bits of a number of any length, so it is
computed in sixteen-bit words from the start.  Writing pads with zeros to a
fixed number of hexadecimal digits.
-/

namespace RelocExpr.Text

/-- Value of a decimal digit or of a letter of either case, when the radix has
that digit. -/
def digitValue? (radix : Nat) (character : Char) : Option Nat :=
  let value? :=
    if character.isDigit then some (character.toNat - '0'.toNat)
    else if character.isAlpha then some (character.toLower.toNat - 'a'.toNat + 10)
    else none
  value?.filter (· < radix)

/-- Append digits to a number that has been read so far, modulo 2^16. -/
def appendDigits (radix : Nat) : UInt16 → List Char → Option UInt16
  | value, [] => some value
  | value, digit :: rest =>
      match digitValue? radix digit with
      | some amount =>
          appendDigits radix (value * .ofNat radix + .ofNat amount) rest
      | none => none

/-- The number that a non-empty run of digits spells, modulo 2^16. -/
def readDigits? (radix : Nat) (digits : List Char) : Option UInt16 :=
  if digits.isEmpty then none else appendDigits radix 0 digits

/-- One upper-case hexadecimal digit. -/
def hexDigit (value : Nat) : Char :=
  (Nat.digitChar (value % 16)).toUpper

/-- The low hexadecimal digits of a number, as many as the width says. -/
def hexDigits : (width : Nat) → Nat → List Char
  | 0, _ => []
  | width + 1, value => hexDigits width (value / 16) ++ [hexDigit value]

/-- A byte as two upper-case hexadecimal digits. -/
def hexByte (byte : UInt8) : String :=
  .ofList (hexDigits 2 byte.toNat)

/-- A word as four upper-case hexadecimal digits. -/
def hexWord (word : UInt16) : String :=
  .ofList (hexDigits 4 word.toNat)

end RelocExpr.Text
