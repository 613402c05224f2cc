import RelocExpr.Expression.Postfix

/-!
# What the reading of a text depends on

The current location is read only where `$` stands, so a text without it has the
same parts at every location.  The size of an expression is not read at all: it is
put down in the expression and kept.
-/

namespace RelocExpr

variable {reading : Reading} {text : List Char}

/-! ## The current location -/

namespace Lexeme

variable {first : Char} {rest : List Char}

theorem unmarkedParts_location {name : String} (other : name ≠ "$") (location : Address)
    (after : List Char) :
    unmarkedParts { reading with location } name after =
      unmarkedParts reading name after := by
  simp only [unmarkedParts, if_neg other]

/-- A word that is `$` has that character. -/
theorem ofList_ne_of_not_mem {name : List Char} (absent : '$' ∉ name) :
    String.ofList name ≠ "$" := by
  intro equal
  have characters := congrArg String.toList equal
  rw [String.toList_ofList] at characters
  rw [characters] at absent
  exact absent (by decide)

theorem word_location (absent : '$' ∉ first :: rest) (location : Address) (root : Bool) :
    word { reading with location } root first rest = word reading root first rest := by
  have absentName : '$' ∉ first :: rest.takeWhile isWordCharacter := by
    intro member
    exact absent (((List.takeWhile_sublist _).cons_cons first).subset member)
  simp only [word, unmarkedParts_location (ofList_ne_of_not_mem absentName)]

theorem scanWord_location (absent : '$' ∉ first :: rest) (location : Address) :
    scanWord { reading with location } first rest = scanWord reading first rest := by
  rw [scanWord.eq_def, scanWord.eq_def, word_location absent]
  cases rest with
  | nil => rfl
  | cons start more =>
      have absentRest : '$' ∉ start :: more := by
        intro member
        exact absent (List.mem_cons_of_mem first member)
      simp only [word_location absentRest]

theorem scan_location (absent : '$' ∉ first :: rest) (location : Address)
    (afterOperand : Bool) :
    scan { reading with location } afterOperand first rest =
      scan reading afterOperand first rest := by
  rw [scan, scanWord_location absent]
  rfl

end Lexeme

/-- What is read after blanks is in the text. -/
theorem not_mem_of_dropWhile {absentee first : Char} {rest : List Char}
    (absent : absentee ∉ text) (found : text.dropWhile Text.isBlank = first :: rest) :
    absentee ∉ first :: rest := by
  rw [← found]
  intro member
  exact absent ((List.dropWhile_sublist _).subset member)

/-- A text without `$` has the same parts at every location. -/
theorem readParts_location (absent : '$' ∉ text) (location : Address) (afterOperand : Bool) :
    readParts { reading with location } afterOperand text =
      readParts reading afterOperand text := by
  fun_induction readParts reading afterOperand text with
  | case1 afterOperand text blank => exact readParts_of_blank blank
  | case2 afterOperand text first rest found blanks error scanned =>
      have absentHere := not_mem_of_dropWhile absent found
      rw [← Lexeme.scan_location absentHere location] at scanned
      exact readParts_of_scan_error found scanned
  | case3 afterOperand text first rest found blanks lexeme scanned before ih =>
      have absentHere := not_mem_of_dropWhile absent found
      have absentLater : '$' ∉ lexeme.rest := by
        intro member
        rw [← (Lexeme.covers_scan scanned).taken_append_rest] at absentHere
        exact absentHere (List.mem_append_right _ member)
      rw [← Lexeme.scan_location absentHere location] at scanned
      rw [readParts_of_scan found scanned, ih absentLater]

/-- To trim a text adds no characters. -/
theorem mem_of_mem_trim {character : Char} {drop : Char → Bool}
    (member : character ∈ Text.trim drop text) : character ∈ text := by
  rw [Text.trim, List.mem_reverse] at member
  have kept := (List.dropWhile_sublist _).subset member
  rw [List.mem_reverse] at kept
  exact (List.dropWhile_sublist _).subset kept

namespace Expression

variable {source : String}

theorem read_location (absent : '$' ∉ source.toList) (location : Address) (isByte : Bool) :
    read { reading with location } isByte source = read reading isByte source := by
  have absentTrimmed : '$' ∉ Text.trim Text.isBlank source.toList := by
    intro member
    exact absent (mem_of_mem_trim member)
  simp only [read, readParts_location absentTrimmed]

/-- A text without `$` is the same expression at every location. -/
theorem compile_location (absent : '$' ∉ source.toList) (location : Address)
    (isByte : Bool) :
    compile { reading with location } isByte source = compile reading isByte source := by
  rw [compile, read_location absent, compile]

/-! ## The size -/

theorem read_withSize (reading : Reading) (first second : Bool) (source : String) :
    read reading second source = (read reading first source).map (withSize · second) := by
  simp only [read]
  cases readParts reading false (Text.trim Text.isBlank source.toList) <;> rfl

theorem toPostfix_withSize (expression : Expression) (isByte : Bool) :
    (expression.withSize isByte).toPostfix =
      (expression.toPostfix.1, expression.toPostfix.2.withSize isByte) := by
  rcases expression with ⟨source, parts, size, isPostfix⟩
  cases isPostfix with
  | true => rfl
  | false =>
      simp only [toPostfix, withSize, Bool.false_eq_true, if_false]
      cases orderParts (simplifyParts parts) <;> rfl

/-- The same text in another size is the same expression in that size. -/
theorem compile_withSize (reading : Reading) (first second : Bool) (source : String) :
    compile reading second source =
      (compile reading first source).map (withSize · second) := by
  rw [compile, read_withSize reading first, compile]
  cases read reading first source with
  | error error => rfl
  | ok expression =>
      simp only [Except.map]
      rw [toPostfix_withSize]
      rcases expression.toPostfix with ⟨outcome, ordered⟩
      cases outcome <;> rfl

end Expression

end RelocExpr
