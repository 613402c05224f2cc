import RelocExpr.Proofs.ErrorText
import RelocExpr.Report

/-!
# When a report can be drawn

A report is drawn when both ends of the span of its error lie between characters of the
text.  The column of an error of reading does not count the blanks before the expression,
but a report shows the text with these blanks.  So the span has as many bytes as there are
such blanks too few before it, and it may begin or end inside a character.  Without blanks
before the expression it never does.
-/

namespace RelocExpr

/-! ## Boundaries of characters -/

namespace Text

/-- The offset in bytes lies between two characters of the text, or at one of its ends. -/
def IsBoundary (text : List Char) (offset : Nat) : Prop :=
  ∃ left right, text = left ++ right ∧ byteWidth left = offset

variable {text : List Char} {offset : Nat}

theorem isBoundary_byteWidth (left right : List Char) :
    IsBoundary (left ++ right) (byteWidth left) :=
  ⟨left, right, rfl, rfl⟩

theorem isBoundary_zero (text : List Char) : IsBoundary text 0 :=
  isBoundary_byteWidth [] text

theorem isBoundary_nil_iff : IsBoundary [] offset ↔ offset = 0 := by
  constructor
  · rintro ⟨left, right, split, rfl⟩
    rw [(List.append_eq_nil_iff.1 split.symm).1]
    rfl
  · rintro rfl
    exact isBoundary_zero []

/-- Behind the first character a boundary is one of the rest. -/
theorem isBoundary_cons_iff {head : Char} (positive : offset ≠ 0) :
    IsBoundary (head :: text) offset ↔
      head.utf8Size ≤ offset ∧ IsBoundary text (offset - head.utf8Size) := by
  constructor
  · rintro ⟨left, right, split, rfl⟩
    cases left with
    | nil => contradiction
    | cons first left =>
        obtain ⟨rfl, rfl⟩ := List.cons.inj split
        rw [byteWidth_cons, Nat.add_sub_cancel_left]
        exact ⟨Nat.le_add_right _ _, isBoundary_byteWidth left right⟩
  · rintro ⟨atLeast, left, right, rfl, width⟩
    refine ⟨head :: left, right, rfl, ?_⟩
    rw [byteWidth_cons, width, Nat.add_sub_cancel' atLeast]

end Text

namespace Report

open Text (IsBoundary)

variable {offset : Nat} {lines : List (List Char)}

/-- A character begins at each boundary but the last one. -/
theorem isSome_placeOfStart?_iff :
    (placeOfStart? offset lines).isSome = true ↔
      offset < Text.byteWidth lines.flatten ∧ IsBoundary lines.flatten offset := by
  fun_induction placeOfStart? offset lines with
  | case1 => simp
  | case2 offset rest ih => simpa using ih
  | case3 character line rest =>
      have positive := character.utf8Size_pos
      simp [Text.isBoundary_zero, Nat.add_pos_left positive]
  | case4 offset character line rest notZero short =>
      have crossed : ¬ character.utf8Size ≤ offset := by omega
      simp [Text.isBoundary_cons_iff notZero, crossed]
  | case5 offset character line rest notZero notShort ih =>
      have passed : character.utf8Size ≤ offset := by omega
      have shifted (total : Nat) :
          offset < character.utf8Size + total ↔ offset - character.utf8Size < total := by
        omega
      simp only [Option.isSome_map, ih, List.flatten_cons, List.cons_append,
        Text.byteWidth_cons, Text.isBoundary_cons_iff notZero, passed, true_and, shifted]

/-- A character ends at each boundary but the first one. -/
theorem isSome_placeOfStop?_iff :
    (placeOfStop? offset lines).isSome = true ↔
      offset ≠ 0 ∧ IsBoundary lines.flatten offset := by
  fun_induction placeOfStop? offset lines with
  | case1 => simp [Text.isBoundary_nil_iff]
  | case2 offset rest ih => simpa using ih
  | case3 character line rest =>
      have positive := character.utf8Size_pos
      have notZero : character.utf8Size ≠ 0 := by omega
      simp [Text.isBoundary_cons_iff notZero, Text.isBoundary_zero, notZero]
  | case4 offset character line rest other short =>
      have crossed : ¬ character.utf8Size ≤ offset := by omega
      simp only [Option.isSome_none, Bool.false_eq_true, false_iff, not_and]
      intro notZero
      simp [Text.isBoundary_cons_iff notZero, crossed]
  | case5 offset character line rest other notShort ih =>
      have passed : character.utf8Size ≤ offset := by omega
      have notZero : offset ≠ 0 := by
        have positive := character.utf8Size_pos
        omega
      have behind : offset - character.utf8Size ≠ 0 := by omega
      simp only [Option.isSome_map, ih, List.flatten_cons, List.cons_append,
        Text.isBoundary_cons_iff notZero, passed, true_and, notZero, behind, ne_eq,
        not_false_eq_true]

/-- A report is drawn when the span of the error, if there is one, lies between
characters. -/
theorem exists_render_eq_ok_iff (source : String) (error : ExpressionError) (colored : Bool) :
    (∃ report, render source error colored = .ok report) ↔
      ∀ span, error.span? source.toList = some span →
        IsBoundary source.toList span.start ∧ IsBoundary source.toList span.stop := by
  unfold render
  cases found : error.span? source.toList with
  | none => simp
  | some span =>
      obtain ⟨order, inside⟩ := ExpressionError.span?_bounds found
      have starts : (placeOfStart? span.start (splitLines source.toList)).isSome = true ↔ _ :=
        isSome_placeOfStart?_iff
      have stops : (placeOfStop? span.stop (splitLines source.toList)).isSome = true ↔ _ :=
        isSome_placeOfStop?_iff
      have before : span.start < Text.byteWidth source.toList := by omega
      have notZero : span.stop ≠ 0 := by omega
      rw [flatten_splitLines] at starts stops
      simp only [before, true_and] at starts
      simp only [notZero, ne_eq, not_false_eq_true, true_and] at stops
      simp only [Option.some.injEq, forall_eq', ← starts, ← stops]
      cases placeOfStart? span.start (splitLines source.toList) with
      | none => simp
      | some start =>
          cases placeOfStop? span.stop (splitLines source.toList) with
          | none => simp
          | some stop => simp

/-! ## Errors of reading -/

/-- Where the span of an error ends in a text: behind the characters that the error is about,
or, when it is about an unclosed literal, at the end of the text. -/
def StopsAt (error : ExpressionError) (source before shown : List Char) (stop : Nat) : Prop :=
  ((∀ column, error ≠ .openString column) ∧ stop = Text.byteWidth (before ++ shown)) ∨
    (∃ column, error = .openString column) ∧ stop = Text.byteWidth source

section

variable {settings : Settings} {error : ExpressionError}
variable {inner shown after before source : List Char}

/-- An unclosed literal is as long as the text it is shown in; every other error knows its
characters. -/
theorem extent_cases (about : error.IsAbout settings inner shown after) :
    ((∀ column, error ≠ .openString column) ∧
        ∀ remaining, error.extent remaining = Text.byteWidth shown) ∨
      (∃ column, error = .openString column) ∧
        ∀ remaining, error.extent remaining = remaining := by
  cases about <;> simp [ExpressionError.extent]

/-- The span of an error in a longer text begins at the same offset. -/
theorem exists_stopsAt (about : error.IsAbout settings inner shown after)
    (column : error.column? = some (Text.byteWidth before + 1))
    (longer : Text.byteWidth (before ++ shown) ≤ Text.byteWidth source) :
    ∃ stop, error.span? source = some { start := Text.byteWidth before, stop } ∧
      StopsAt error source before shown stop := by
  have positive := Text.byteWidth_pos about.shown_ne_nil
  rw [Text.byteWidth_append] at longer
  refine ⟨_, ExpressionError.span?_of_column? column (by omega), ?_⟩
  rcases extent_cases about with ⟨closed, extent⟩ | ⟨unclosed, extent⟩
  · left
    rw [extent, Text.byteWidth_append]
    exact ⟨closed, by omega⟩
  · right
    rw [extent]
    exact ⟨unclosed, by omega⟩

/-- Where nothing comes before the characters that were read, the span lies between
characters. -/
theorem StopsAt.isBoundary {stop : Nat} {rest : List Char}
    (stops : StopsAt error source before shown stop)
    (split : source = before ++ (shown ++ rest)) :
    IsBoundary source (Text.byteWidth before) ∧ IsBoundary source stop := by
  constructor
  · rw [split]
    exact Text.isBoundary_byteWidth before _
  · rcases stops with ⟨-, rfl⟩ | ⟨-, rfl⟩
    · rw [split, ← List.append_assoc]
      exact Text.isBoundary_byteWidth _ rest
    · have whole := Text.isBoundary_byteWidth source []
      rwa [List.append_nil] at whole

end

/-- When a text can not be read, and `shown` is what the error is about, the span of the
error in the text as it was given is as many bytes too early as there are blanks before the
expression.  The report is drawn exactly if the span still lies between characters, and so
it is without such blanks. -/
theorem render_of_read_error {reading : Reading} {isByte : Bool} {text : String}
    {error : ExpressionError} (faulty : Expression.read reading isByte text = .error error)
    (colored : Bool) :
    let source := text.toList
    let blanks := source.takeWhile Text.isBlank
    ∃ before shown after trail stop,
      source = blanks ++ (before ++ shown ++ after) ++ trail ∧
      error.span? (Text.trim Text.isBlank source) =
        some { start := Text.byteWidth before, stop := Text.byteWidth (before ++ shown) } ∧
      error.span? source = some { start := Text.byteWidth before, stop } ∧
      StopsAt error source before shown stop ∧
      ((∃ report, render text error colored = .ok report) ↔
        IsBoundary source (Text.byteWidth before) ∧ IsBoundary source stop) ∧
      (blanks = [] → ∃ report, render text error colored = .ok report) := by
  intro source blanks
  obtain ⟨earlier, inner, shown, after, -, split, -, column, about⟩ :=
    exists_isAbout_of_readParts (Expression.readParts_of_read_error faulty)
  generalize earlier ++ inner = before at split column
  obtain ⟨trail, -, whole⟩ := Text.exists_eq_append_trim Text.isBlank source
  rw [split] at whole
  have longer : Text.byteWidth (before ++ shown) ≤ Text.byteWidth source := by
    rw [whole]
    simp only [Text.byteWidth_append]
    omega
  obtain ⟨stop, spanned, stops⟩ := exists_stopsAt about column longer
  have drawn : (∃ report, render text error colored = .ok report) ↔
      IsBoundary source (Text.byteWidth before) ∧ IsBoundary source stop := by
    rw [exists_render_eq_ok_iff, spanned]
    simp only [Option.some.injEq, forall_eq']
    exact Iff.rfl
  refine ⟨before, shown, after, trail, stop, whole, ?_, spanned, stops, drawn, ?_⟩
  · rw [split]
    exact about.span?_eq column
  · intro noBlanks
    have atStart : source = before ++ (shown ++ (after ++ trail)) := by
      simpa [show source.takeWhile Text.isBlank = [] from noBlanks] using whole
    exact drawn.2 (stops.isBoundary atStart)

end Report

/-- Blanks after the expression do no harm: the report on `é` is drawn. -/
theorem render_of_read_error_of_trailing_blank :
    let text := "é "
    let error : ExpressionError := .strayCharacter 'é' 1
    Expression.read {} false text = .error error ∧
      ∃ report, Report.render text error false = .ok report := by
  intro text error
  have faulty : Expression.read {} false text = .error error := by decide +kernel
  obtain ⟨_, _, _, _, _, -, -, -, -, -, drawn⟩ := Report.render_of_read_error faulty false
  exact ⟨faulty, drawn (by decide +kernel)⟩

/-- With a blank before the expression the span is the blank and one byte of `é`. -/
theorem render_of_leading_blank :
    let text := " é"
    let error : ExpressionError := .strayCharacter 'é' 1
    Expression.read {} false text = .error error ∧
      error.span? text.toList = some { start := 0, stop := 2 } ∧
      Report.render text error false = .error (.splitCharacter 2) := by
  intro text error
  have span : error.span? text.toList = some { start := 0, stop := 2 } := by decide +kernel
  have lines : Report.splitLines text.toList = [[' ', 'é']] := by decide +kernel
  have widths : ' '.utf8Size = 1 ∧ 'é'.utf8Size = 2 := by decide
  have starts : Report.placeOfStart? 0 [[' ', 'é']] = some { line := 0, column := 0 } := by
    simp [Report.placeOfStart?]
  have stops : Report.placeOfStop? 2 [[' ', 'é']] = none := by
    simp [Report.placeOfStop?, widths]
  refine ⟨by decide +kernel, span, ?_⟩
  rw [Report.render, span]
  simp only [lines, starts, stops]

end RelocExpr
