import RelocExpr.Defect
import RelocExpr.Report.Lines

/-!
# Reports

A report shows an error below the text that it is about, with the offending
characters underlined.  An error without a span is reported on one line, without
any text.
-/

namespace RelocExpr.Report

/-! ## Colors -/

/-- What a piece of a report is, which decides about its color. -/
inductive Ink where
  | plain
  | mark
  | frame
  | gutter
  | source
  | note
  deriving DecidableEq, Repr

/-- The color code of a terminal. -/
def Ink.code? : Ink → Option String
  | .plain => none
  | .mark => some "31"
  | .frame => some "38;5;246"
  | .gutter => some "38;5;240"
  | .source => some "38;5;249"
  | .note => some "38;5;115"

/-- A piece of a line that has one color. -/
structure Piece where
  ink : Ink
  text : List Char
  deriving DecidableEq, Repr

/-- The piece as it is sent to a terminal. -/
def Piece.render (colored : Bool) (piece : Piece) : String :=
  let text := String.ofList piece.text
  match piece.ink.code? with
  | some code =>
      if colored then "\x1b[" ++ code ++ "m" ++ text ++ "\x1b[0m" else text
  | none => text

private def plain (text : String) : Piece := ⟨.plain, text.toList⟩

private def frame (text : String) : Piece := ⟨.frame, text.toList⟩

private def blanks (count : Nat) : List Char := .replicate count ' '

/-! ## Underlines -/

/-- The characters of a line that a span takes, counted from zero. -/
structure Underline where
  start : Nat
  stop : Nat
  deriving DecidableEq, Repr

namespace Underline

/-- The column from which the underline points down to its label. -/
def middle (underline : Underline) : Nat :=
  (underline.start + underline.stop) / 2

/-- The column is underlined. -/
def covers (underline : Underline) (column : Nat) : Bool :=
  underline.start ≤ column && column < underline.stop

/-- The cells of a column below the text: one for its first cell and one for
the others. -/
def markCells (underline : Underline) (column : Nat) : Char × Char :=
  if column = underline.middle then ('┬', '─')
  else if underline.covers column then ('─', '─')
  else (' ', ' ')

/-- The cells of a column on the line that leads to the label. -/
def leaderCells (underline : Underline) (column : Nat) : Char × Char :=
  if column = underline.middle then ('╰', '─')
  else if underline.middle < column then ('─', '─')
  else (' ', ' ')

end Underline

/-- One cell each in the color of the underline; spaces have no color. -/
private def cellPieces (width : Nat) (cells : Char × Char) : List Piece :=
  let texts := if width = 0 then [] else cells.1 :: .replicate (width - 1) cells.2
  texts.map fun cell => ⟨if cell = ' ' then .plain else .mark, [cell]⟩

/-- A row below a line, up to the column after the underlined ones. -/
def rowPieces (line : List Char) (stop : Nat) (cells : Nat → Char × Char) :
    List Piece :=
  (List.range (stop + 2)).flatMap fun column =>
    cellPieces (columnWidth line column) (cells column)

/-- The line itself, cell by cell. -/
def linePieces (line : List Char) (underline : Underline) : List Piece :=
  (shownLine line).zipIdx.flatMap fun (character, column) =>
    let ink := if underline.covers column then Ink.mark else .source
    (shownCharacter column character).map fun cell => ⟨ink, [cell]⟩

/-! ## Layout -/

/-- The number of a line, right-aligned. -/
private def lineNumber (width line : Nat) : List Char :=
  let digits := (toString (line + 1)).toList
  blanks (width - digits.length) ++ digits

/-- The message and the line that says where the text is shown from. -/
private def heading (message : String) (width : Nat) (start : Place) :
    List (List Piece) :=
  [[⟨.mark, "Error:".toList⟩, plain (" " ++ message)],
   [⟨.plain, blanks (width + 2)⟩, frame "╭", frame "─", frame "[",
    plain (" <expression>:" ++ toString (start.line + 1) ++ ":" ++
      toString (start.column + 1) ++ " "),
    frame "]"],
   [⟨.plain, blanks (width + 2)⟩, frame "│"]]

/-- The space left of a row without a number, up to an upright stroke. -/
private def margin (width : Nat) (stroke : Char) : List Piece :=
  [plain " ", ⟨.gutter, blanks (width + 1) ++ [stroke]⟩, plain " "]

/-- The space left of everything that is not the text itself. -/
private def gutter (width : Nat) : List Piece := margin width '│'

/-- The number left of a line of the text. -/
private def numbered (width line : Nat) : List Piece :=
  [plain " ", ⟨.frame, lineNumber width line ++ " │".toList⟩, plain " "]

/-- The line that ends a report. -/
private def closing (width : Nat) : List Piece :=
  [⟨.frame, .replicate (width + 2) '─' ++ ['╯']⟩]

/-- The category of the error, below the text. -/
private def noteLine (category : ErrorCategory) : List Piece :=
  [⟨.note, "Note".toList⟩, plain (": " ++ category.note)]

/-- The lines of a report on a part of one line. -/
def singleLine (error : ExpressionError) (width : Nat) (line : List Char)
    (start : Place) (stop : Nat) : List (List Piece) :=
  let underline : Underline := { start := start.column, stop }
  heading error.message width start ++
  [numbered width start.line ++ linePieces line underline,
   gutter width ++ rowPieces line stop underline.markCells,
   gutter width ++ rowPieces line stop underline.leaderCells ++ [plain " here"],
   gutter width,
   gutter width ++ noteLine error.category,
   closing width]

/-- Cells in the color of the underlined text. -/
private def marks (text : String) : List Piece :=
  text.toList.map fun cell => ⟨.mark, [cell]⟩

/-- The stroke that leads from the first line of a span to its last one. -/
private def bar (stroke : Char) : List Piece := [⟨.mark, [stroke]⟩, plain "   "]

/-- What stands below the bar, beside the note.  The bar of a span that starts
with the second line of the text goes on there; any other has ended. -/
private def belowBar (start : Place) : List Piece :=
  if start = { line := 1, column := 0 } then bar '│' else [plain "    "]

/-- The lines of a report on a span that goes over several lines, of which the
first and the last one are shown. -/
def manyLines (error : ExpressionError) (width : Nat) (first last : List Char)
    (start stop : Place) : List (List Piece) :=
  let reach :=
    (List.range (last.length + 2)).foldl (· + columnWidth last ·) 0
  let between : List (List Piece) :=
    if stop.line - start.line > 1 then [margin width '┆' ++ bar '┆'] else []
  heading error.message width start ++
  [numbered width start.line ++ marks "╭─▶ " ++
    linePieces first { start := start.column, stop := first.length }] ++
  between ++
  [numbered width stop.line ++ marks "├─▶ " ++
    linePieces last { start := 0, stop := stop.column },
   gutter width ++ bar '│' ++ [⟨.plain, blanks reach⟩],
   gutter width ++ marks "╰───" ++ .replicate reach ⟨.mark, ['─']⟩ ++
    [plain " here"],
   gutter width ++ belowBar start,
   gutter width ++ belowBar start ++ noteLine error.category,
   closing width]

/-- Every line with a line feed behind it. -/
def renderLines (colored : Bool) (lines : List (List Piece)) : String :=
  .join (lines.map fun pieces =>
    .join (pieces.map (Piece.render colored)) ++ "\n")

/-- The report of an error below the text that it is about.  The span of the
error must not begin or end inside a character. -/
def render (source : String) (error : ExpressionError) (colored : Bool) :
    Except Defect String :=
  match error.span? source.toList with
  | none => .ok ("error: " ++ error.message)
  | some span =>
      let lines := splitLines source.toList
      match placeOfStart? span.start lines, placeOfStop? span.stop lines with
      | some start, some stop =>
          let width := (toString (stop.line + 1)).length
          let first := lines.getD start.line []
          let last := lines.getD stop.line []
          .ok (renderLines colored
            (if start.line = stop.line then
              singleLine error width first start stop.column
            else manyLines error width first last start stop))
      | none, _ => .error (.splitCharacter span.start)
      | _, none => .error (.splitCharacter span.stop)

end RelocExpr.Report
