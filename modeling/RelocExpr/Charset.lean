import RelocExpr.Text

/-!
# Charsets of string literals

The bytes that a character of a string literal stands for.
-/

namespace RelocExpr

/-- How the characters of a string literal become bytes. -/
inductive Charset where
  | ascii
  | latin1
  | utf8
  deriving DecidableEq, Repr, Inhabited

namespace Charset

/-- Name of the charset in messages. -/
def name : Charset → String
  | .ascii => "ascii"
  | .latin1 => "latin1"
  | .utf8 => "utf8"

/-- Names under which the charset can be chosen, in lower case. -/
def aliases : Charset → List String
  | .ascii => ["ascii", "us-ascii"]
  | .latin1 => ["latin1", "latin-1", "iso-8859-1"]
  | .utf8 => ["utf8", "utf-8"]

/-- The charset of a name, in letters of either case. -/
def ofName? (name : String) : Option Charset :=
  [ascii, latin1, utf8].find? fun charset => Text.lower name ∈ charset.aliases

/-- Bytes of a character, if the charset has it. -/
def encode? (charset : Charset) (character : Char) : Option (List UInt8) :=
  match charset with
  | .ascii =>
      if character.toNat < 0x80 then some [.ofNat character.toNat] else none
  | .latin1 =>
      if character.toNat < 0x100 then some [.ofNat character.toNat] else none
  | .utf8 => some (String.utf8EncodeChar character)

/-- The characters of ASCII take one byte, with their code, in every charset. -/
theorem encode?_of_lt (charset : Charset) (character : Char)
    (ascii : character.toNat < 0x80) :
    charset.encode? character = some [.ofNat character.toNat] := by
  have small : character.val.toNat ≤ 0x7F := Nat.le_of_lt_succ ascii
  cases charset with
  | ascii => exact if_pos ascii
  | latin1 => exact if_pos (Nat.lt_trans ascii (by decide))
  | utf8 => exact congrArg some (if_pos small)

/-- The message when a charset is asked for by an unknown name. -/
def unknownMessage (name : String) : String :=
  "unknown string encoding '" ++ name ++ "'"

end Charset

end RelocExpr
