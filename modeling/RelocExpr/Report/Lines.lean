import RelocExpr.Text.CellWidth
import RelocExpr.Text.White

/-!
# Lines and columns

A text is split into lines after each line separator, which belongs to the line
that it ends.  An offset in bytes is a place between two characters of a line,
unless it lies inside of a character.  On a terminal a line is shown without the
white space at its end, and its other white space as spaces.
-/

namespace RelocExpr.Report

/-- The character ends a line. -/
def isLineSeparator (character : Char) : Bool :=
  character.toNat ∈ [0x0A, 0x0B, 0x0C, 0x0D, 0x85, 0x2028, 0x2029]

/-- Put a character in front of the first line. -/
private def consFirst (character : Char) : List (List Char) → List (List Char)
  | [] => [[character]]
  | line :: rest => (character :: line) :: rest

/-- The lines of a text with their separators.  A carriage return and a line
feed are one separator, and nothing follows the last one. -/
def splitLines : List Char → List (List Char)
  | [] => []
  | '\r' :: '\n' :: rest => ['\r', '\n'] :: splitLines rest
  | character :: rest =>
      if isLineSeparator character then [character] :: splitLines rest
      else consFirst character (splitLines rest)

/-- Lines lose no character of the text. -/
@[simp] theorem flatten_splitLines (text : List Char) :
    (splitLines text).flatten = text := by
  fun_induction splitLines text with
  | case1 => rfl
  | case2 rest ih => simp [ih]
  | case3 character rest _ _ ih => simp [ih]
  | case4 character rest _ _ ih =>
      cases split : splitLines rest with
      | nil => simp_all [consFirst]
      | cons line lines => simp_all [consFirst]

/-- A line, and a number of characters of it, both counted from zero. -/
structure Place where
  line : Nat
  column : Nat
  deriving DecidableEq, Repr

/-- The place of the character that begins at an offset in bytes. -/
def placeOfStart? (offset : Nat) : List (List Char) → Option Place
  | [] => none
  | [] :: rest =>
      (placeOfStart? offset rest).map fun place =>
        { place with line := place.line + 1 }
  | (character :: line) :: rest =>
      if offset = 0 then some { line := 0, column := 0 }
      else if offset < character.utf8Size then none
      else
        (placeOfStart? (offset - character.utf8Size) (line :: rest)).map
          fun place =>
            if place.line = 0 then { place with column := place.column + 1 }
            else place

/-- The place behind the character that ends at an offset in bytes. -/
def placeOfStop? (offset : Nat) : List (List Char) → Option Place
  | [] => none
  | [] :: rest =>
      (placeOfStop? offset rest).map fun place =>
        { place with line := place.line + 1 }
  | (character :: line) :: rest =>
      if offset = character.utf8Size then some { line := 0, column := 1 }
      else if offset < character.utf8Size then none
      else
        (placeOfStop? (offset - character.utf8Size) (line :: rest)).map
          fun place =>
            if place.line = 0 then { place with column := place.column + 1 }
            else place

/-- The line without the white space at its end. -/
def shownLine (line : List Char) : List Char :=
  (line.reverse.dropWhile Text.isWhite).reverse

/-- The cells between a column and the next multiple of four. -/
def tabWidth (column : Nat) : Nat := 4 - column % 4

/-- The characters that a terminal shows for a character of a line. -/
def shownCharacter (column : Nat) (character : Char) : List Char :=
  if character = '\t' then .replicate (tabWidth column) ' '
  else if Text.isWhite character then [' ']
  else [character]

/-- The cells that a character of a line takes. -/
def shownWidth (column : Nat) (character : Char) : Nat :=
  if character = '\t' then tabWidth column
  else if Text.isWhite character then 1
  else Text.cellWidth character

/-- The cells of a column of a line; there is one in each column behind it. -/
def columnWidth (line : List Char) (column : Nat) : Nat :=
  match (shownLine line)[column]? with
  | some character => shownWidth column character
  | none => 1

end RelocExpr.Report
