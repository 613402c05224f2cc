import RelocExpr.ExpressionError
import RelocExpr.Part
import RelocExpr.Settings

/-!
# Lexemes

A lexeme is a run of characters at the front of a text that stands for a part of
an expression.  A lexeme `Covers` the text it was read from when the characters
it takes and the ones it leaves are that text, and it takes the first of them;
every scanner of lexemes has this property.

A lexeme stands for one part.  Only `NUL` has two, and it is the last lexeme of its
text.  The errors of the scanners are lexical.
-/

namespace RelocExpr

/-- What the parts of a text depend on besides the text. -/
structure Reading where
  settings : Settings := {}
  /-- The address that `$` stands for. -/
  location : Address := ⟨.code, 0⟩
  /-- String literals are data and keep their bytes. -/
  data : Bool := false
  deriving DecidableEq, Repr, Inhabited

/-- A run of characters and the parts it stands for. -/
structure Lexeme where
  parts : List Part
  taken : List Char
  rest : List Char
  deriving DecidableEq, Repr

namespace Lexeme

/-- The lexeme takes the first character, and it takes or leaves the others. -/
def Covers (lexeme : Lexeme) (first : Char) (rest : List Char) : Prop :=
  ∃ more, lexeme.taken = first :: more ∧ more ++ lexeme.rest = rest

theorem Covers.length_rest_le {lexeme : Lexeme} {first : Char} {rest : List Char}
    (covers : lexeme.Covers first rest) : lexeme.rest.length ≤ rest.length := by
  obtain ⟨more, _, rfl⟩ := covers
  simp

theorem Covers.taken_append_rest {lexeme : Lexeme} {first : Char}
    {rest : List Char} (covers : lexeme.Covers first rest) :
    lexeme.taken ++ lexeme.rest = first :: rest := by
  obtain ⟨more, taken, rfl⟩ := covers
  simp [taken]

/-- What a lexeme stands for: one part, which is a string only in data, or `NUL` with
its value, after which nothing is left. -/
inductive Stands (reading : Reading) : Lexeme → Prop where
  | part {part : Part} {taken rest : List Char} :
      part ≠ .operator (.unary .nul) → (part.isBytes = true → reading.data = true) →
      Stands reading { parts := [part], taken, rest }
  | nul (holds : Bool) (taken : List Char) :
      Stands reading
        { parts := [.operator (.unary .nul), .address (.truth holds)], taken, rest := [] }

end Lexeme

end RelocExpr
