/-!
# White space

The Unicode property `White_Space`, which has twenty-five characters.
-/

namespace RelocExpr.Text

/-- Ranges of code points with the property `White_Space`, in order. -/
def whiteSpaceRanges : List (Nat × Nat) :=
  [(0x09, 0x0D), (0x20, 0x20), (0x85, 0x85), (0xA0, 0xA0), (0x1680, 0x1680),
   (0x2000, 0x200A), (0x2028, 0x2029), (0x202F, 0x202F), (0x205F, 0x205F),
   (0x3000, 0x3000)]

/-- The character has the property `White_Space`. -/
def isWhite (character : Char) : Bool :=
  whiteSpaceRanges.any fun (first, last) =>
    first ≤ character.toNat && character.toNat ≤ last

end RelocExpr.Text
