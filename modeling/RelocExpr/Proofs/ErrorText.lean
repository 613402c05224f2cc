import Mathlib.Data.List.TakeWhile
import RelocExpr.Except
import RelocExpr.Expression

/-!
# The text of an error

An error of reading is about some characters of the text.  It quotes them, or they are
a string literal that the end of the text leaves open.  They lie in the first lexeme
that can not be scanned, and the span of the error has exactly their bytes.
-/

namespace RelocExpr

/-! ## Inside a string literal -/

namespace Lexeme.Quoting

variable {quoting : Quoting} {first : Char} {rest more body : List Char}
variable {bytes : List UInt8} {error : ExpressionError}

/-- Characters that can follow an opening quote without an end of the literal among
them. -/
inductive Inside (quoting : Quoting) : List Char → Prop
  | nil : Inside quoting []
  | plain {character : Char} {rest : List Char} :
      character ≠ quoting.quote → (quoting.escapes = true → character ≠ '\\') →
      Inside quoting rest → Inside quoting (character :: rest)
  | doubled {rest : List Char} :
      quoting.escapes = false → Inside quoting rest →
      Inside quoting (quoting.quote :: quoting.quote :: rest)
  | escaped {code : Char} {rest : List Char} :
      quoting.escapes = true → Inside quoting rest → Inside quoting ('\\' :: code :: rest)

/-- A piece of content takes the characters that follow the first one. -/
theorem exists_append_of_piece (read : quoting.piece first rest = .content bytes more) :
    ∃ later, rest = more ++ later := by
  rcases piece_eq_content_cases read with
    ⟨rfl, -⟩ | ⟨rfl, doubled, -⟩ | ⟨-, -, _, _, later, -, split, -⟩
  · exact ⟨rest, rfl⟩
  · obtain ⟨later, rfl⟩ := List.head?_eq_some_iff.1 doubled
    exact ⟨later, rfl⟩
  · exact ⟨later, split⟩

/-- Hexadecimal digits mean nothing inside a literal. -/
theorem Inside.digits_append {digits : List Char}
    (noDigit : Text.digitValue? 16 quoting.quote = none)
    (areDigits : ∀ digit ∈ digits, (Text.digitValue? 16 digit).isSome = true)
    (inside : quoting.Inside body) : quoting.Inside (digits ++ body) := by
  induction digits with
  | nil => exact inside
  | cons digit rest ih =>
      have isDigit := areDigits digit List.mem_cons_self
      refine .plain ?_ ?_ (ih fun other member => areDigits other (List.mem_cons_of_mem _ member))
      · rintro rfl
        rw [noDigit] at isDigit
        contradiction
      · rintro - rfl
        revert isDigit
        decide

/-- The literal goes on after a piece of content. -/
theorem Inside.piece_append (noDigit : Text.digitValue? 16 quoting.quote = none)
    (read : quoting.piece first rest = .content bytes more) (inside : quoting.Inside body) :
    quoting.Inside (first :: more ++ body) := by
  rcases piece_eq_content_cases read with
    ⟨rfl, notQuote, notEscape⟩ | ⟨rfl, -, rfl, noEscapes⟩ |
      ⟨rfl, escapes, code, digits, -, rfl, -, areDigits⟩
  · exact .plain notQuote notEscape inside
  · exact .doubled noEscapes inside
  · exact .escaped escapes (inside.digits_append noDigit areDigits)

/-- Reading a literal fails at the end of the text or at the first faulty piece. -/
theorem scan_eq_error_cases {offset : Nat} {text : List Char}
    (noDigit : Text.digitValue? 16 quoting.quote = none)
    (faulty : quoting.scan offset text = .error error) :
    (quoting.Inside text ∧ error = .openString 1) ∨
      ∃ body first rest cause, text = body ++ first :: rest ∧ quoting.Inside body ∧
        quoting.piece first rest = .faulty cause ∧
        error = cause.shift (offset + Text.byteWidth body) := by
  fun_induction Quoting.scan quoting offset text with
  | case1 =>
      cases faulty
      exact .inl ⟨.nil, rfl⟩
  | case2 => contradiction
  | case3 offset first rest cause found =>
      cases faulty
      exact .inr ⟨[], first, rest, cause, rfl, .nil, found, rfl⟩
  | case4 offset first rest bytes more found taken ih =>
      obtain ⟨later, rfl⟩ := exists_append_of_piece found
      have takenMore : taken = first :: more := by simp [taken]
      have dropped : (more ++ later).drop more.length = later := by simp
      rw [dropped, takenMore] at ih
      rcases ih (by simpa [dropped, takenMore] using Except.map_eq_error_iff.1 faulty) with
        ⟨inside, rfl⟩ | ⟨body, next, others, cause, rfl, inside, faultyPiece, rfl⟩
      · exact .inl ⟨inside.piece_append noDigit found, rfl⟩
      · refine .inr ⟨first :: more ++ body, next, others, cause, by simp,
          inside.piece_append noDigit found, faultyPiece, ?_⟩
        rw [Text.byteWidth_append, ← Nat.add_assoc]

end Lexeme.Quoting

/-- A string literal is open after its first quote and these characters. -/
structure Lexeme.OpensLiteral (settings : Settings) (quote : Char) (body : List Char) :
    Prop where
  isQuote : quote = '\'' ∨ quote = '"'
  inside : (Quoting.ofSettings settings quote).Inside body

/-! ## What an error is about -/

/-- The error is about the characters `shown`.  In the text of the faulty lexeme they stand
after `inner`, and `after` is what follows them. -/
inductive ExpressionError.IsAbout (settings : Settings) :
    ExpressionError → (inner shown after : List Char) → Prop
  | strayCharacter {character : Char} {column : Nat} {after : List Char} :
      IsAbout settings (.strayCharacter character column) [] [character] after
  | malformedNumber {first : Char} {literal after : List Char} {column : Nat} :
      IsAbout settings (.malformedNumber (.ofList (first :: literal)) column) []
        (first :: literal) after
  | malformedEscape {code : Char} {body after : List Char} {column : Nat} :
      settings.escapes = true → Lexeme.OpensLiteral settings '"' body →
      IsAbout settings (.malformedEscape (.ofList ['\\', code]) column) ('"' :: body)
        ['\\', code] after
  | unencodable {quote character : Char} {body after : List Char} {column : Nat} :
      Lexeme.OpensLiteral settings quote body →
      IsAbout settings (.unencodable character settings.charset column) (quote :: body)
        [character] after
  | longString {quote : Char} {literal after : List Char} {column : Nat} :
      IsAbout settings (.longString (.ofList (quote :: literal)) column) []
        (quote :: literal) after
  /-- No quote ends the literal. -/
  | openString {quote : Char} {body : List Char} {column : Nat} :
      Lexeme.OpensLiteral settings quote body →
      IsAbout settings (.openString column) [] (quote :: body) []
  /-- No quote ends the hexadecimal digits. -/
  | openHexString {mark : Char} {digits : List Char} {column : Nat} :
      mark.toLower = 'x' → '\'' ∉ digits →
      IsAbout settings (.openString column) [] (mark :: '\'' :: digits) []
  /-- The text ends with the backslash of an escape. -/
  | openEscape {body : List Char} {column : Nat} :
      settings.escapes = true → Lexeme.OpensLiteral settings '"' body →
      IsAbout settings (.openString column) ('"' :: body) ['\\'] []

namespace ExpressionError

variable {settings : Settings} {error : ExpressionError} {inner shown after : List Char}

theorem IsAbout.shift (about : error.IsAbout settings inner shown after) (bytes : Nat) :
    (error.shift bytes).IsAbout settings inner shown after := by
  cases about with
  | strayCharacter => exact .strayCharacter
  | malformedNumber => exact .malformedNumber
  | malformedEscape escapes literal => exact .malformedEscape escapes literal
  | unencodable literal => exact .unencodable literal
  | longString => exact .longString
  | openString literal => exact .openString literal
  | openHexString mark unclosed => exact .openHexString mark unclosed
  | openEscape escapes literal => exact .openEscape escapes literal

theorem IsAbout.shown_ne_nil (about : error.IsAbout settings inner shown after) :
    shown ≠ [] := by
  cases about <;> exact List.cons_ne_nil _ _

/-- The error knows how many bytes it is about. -/
theorem IsAbout.extent_eq (about : error.IsAbout settings inner shown after) :
    error.extent (Text.byteWidth (shown ++ after)) = Text.byteWidth shown := by
  cases about <;> simp [extent]

/-- The error is about some characters of the text, and its column is that of the first of
them. -/
def LiesIn (settings : Settings) (error : ExpressionError) (text : List Char) : Prop :=
  ∃ inner shown after, text = inner ++ shown ++ after ∧
    error.column? = some (Text.byteWidth inner + 1) ∧ error.IsAbout settings inner shown after

end ExpressionError

/-! ## The errors of the scanners -/

namespace Lexeme

open ExpressionError (LiesIn)

variable {reading : Reading} {settings : Settings} {first : Char} {rest : List Char}
variable {error : ExpressionError}

theorem liesIn_scanNumber {radix : Nat} (faulty : scanNumber radix first rest = .error error) :
    error.LiesIn settings (first :: rest) := by
  obtain ⟨-, rfl⟩ := scanNumber_eq_error_iff.1 faulty
  exact ⟨[], _, rest.dropWhile Char.isAlphanum, by simp, rfl, .malformedNumber⟩

theorem liesIn_scanMarked {radix : Nat} (faulty : scanMarked radix first rest = .error error) :
    error.LiesIn settings (first :: rest) := by
  obtain ⟨-, rfl⟩ := scanMarked_eq_error_iff.1 faulty
  exact ⟨[], _, rest.dropWhile Char.isAlphanum, by simp, rfl, .malformedNumber⟩

theorem liesIn_scanHexString (mark : first.toLower = 'x')
    (faulty : scanHexString first '\'' rest = .error error) :
    error.LiesIn settings (first :: '\'' :: rest) := by
  rcases scanHexString_eq_error_cases faulty with ⟨unclosed, rfl⟩ | ⟨digits, after, rfl, rfl⟩
  · exact ⟨[], _, [], by simp, rfl, .openHexString mark unclosed⟩
  · exact ⟨[], first :: '\'' :: digits ++ ['\''], after, by simp, rfl, .malformedNumber⟩

theorem liesIn_scanString (isQuote : first = '\'' ∨ first = '"')
    (faulty : scanString reading first rest = .error error) :
    error.LiesIn reading.settings (first :: rest) := by
  rcases scanString_eq_error_cases faulty with inString | ⟨quoted, rfl, rfl⟩
  · have noDigit : Text.digitValue? 16 first = none := by
      rcases isQuote with rfl | rfl <;> decide
    rcases Quoting.scan_eq_error_cases noDigit inString with
      ⟨inside, rfl⟩ | ⟨body, next, others, cause, rfl, inside, faultyPiece, rfl⟩
    · exact ⟨[], first :: rest, [], by simp, rfl, .openString ⟨isQuote, inside⟩⟩
    have literal : OpensLiteral reading.settings first body := ⟨isQuote, inside⟩
    rcases Quoting.piece_eq_faulty_cases faultyPiece with
      rfl | ⟨rfl, escapes, -, ⟨rfl, rfl⟩ | ⟨code, later, rfl, rfl⟩⟩
    · exact ⟨first :: body, [next], others, by simp, rfl, .unencodable literal⟩
    all_goals
      simp only [Quoting.ofSettings, Bool.and_eq_true, decide_eq_true_eq] at escapes
      obtain ⟨enabled, rfl⟩ := escapes
    · exact ⟨'"' :: body, ['\\'], [], by simp, rfl, .openEscape enabled literal⟩
    · exact ⟨'"' :: body, ['\\', code], later, by simp, rfl, .malformedEscape enabled literal⟩
  · exact ⟨[], first :: quoted.taken, quoted.rest, by simp, rfl, .longString⟩

theorem liesIn_scanWord (faulty : scanWord reading first rest = .error error) :
    error.LiesIn settings (first :: rest) := by
  have stray : error = .strayCharacter first 1 := by
    unfold scanWord at faulty
    split at faulty
    · split at faulty
      · split at faulty
        · contradiction
        · exact (Except.error.inj faulty).symm
      · exact (Except.error.inj faulty).symm
    · contradiction
  subst stray
  exact ⟨[], [first], rest, by simp, rfl, .strayCharacter⟩

theorem liesIn_scan {afterOperand : Bool}
    (faulty : scan reading afterOperand first rest = .error error) :
    error.LiesIn reading.settings (first :: rest) := by
  unfold scan at faulty
  split at faulty
  · exact liesIn_scanNumber faulty
  split at faulty
  · exact liesIn_scanMarked faulty
  split at faulty
  · exact liesIn_scanMarked faulty
  split at faulty
  · next isQuote => exact liesIn_scanString (by simpa using isQuote) faulty
  split at faulty
  · next hexString =>
      simp only [Bool.and_eq_true, decide_eq_true_eq] at hexString
      obtain ⟨digits, rfl⟩ := List.head?_eq_some_iff.1 hexString.2
      exact liesIn_scanHexString hexString.1 faulty
  split at faulty
  · contradiction
  split at faulty
  · exact liesIn_scanWord faulty
  · cases faulty
    exact ⟨[], [first], rest, by simp, rfl, .strayCharacter⟩

end Lexeme

/-! ## The first faulty lexeme -/

/-- The characters of a text before a place have been read, and a lexeme begins at that place:
`rest` is the text from there on.  Every lexeme before it was scanned with all of the text
present. -/
inductive ReadUpTo (reading : Reading) (rest : List Char) (last : Bool) :
    (afterOperand : Bool) → (before : List Char) → Prop
  | blanks {blanks : List Char} :
      (∀ character ∈ blanks, Text.isBlank character = true) →
      ReadUpTo reading rest last last blanks
  | lexeme {afterOperand : Bool} {blanks tail before : List Char} {first : Char}
      {lexeme : Lexeme} :
      (∀ character ∈ blanks, Text.isBlank character = true) →
      Text.isBlank first = false →
      Lexeme.scan reading afterOperand first tail = .ok lexeme →
      lexeme.rest = before ++ rest →
      ReadUpTo reading rest last lexeme.endsOperand before →
      ReadUpTo reading rest last afterOperand (blanks ++ lexeme.taken ++ before)

section

variable {reading : Reading} {afterOperand : Bool} {text rest : List Char} {first : Char}

theorem blank_of_mem_takeWhile :
    ∀ character ∈ text.takeWhile Text.isBlank, Text.isBlank character = true :=
  List.all_eq_true.1 List.all_takeWhile

theorem not_blank_of_dropWhile (found : text.dropWhile Text.isBlank = first :: rest) :
    Text.isBlank first = false := by
  have head := List.head?_dropWhile_not Text.isBlank text
  rw [found] at head
  exact head

/-- Reading a text fails at a lexeme that can not be scanned, after all that is before it
has been read. -/
theorem exists_scan_eq_error_of_readParts {error : ExpressionError}
    (faulty : readParts reading afterOperand text = .error error) :
    ∃ before first rest last cause, text = before ++ first :: rest ∧
      ReadUpTo reading (first :: rest) last afterOperand before ∧
      Lexeme.scan reading last first rest = .error cause ∧
      error = cause.shift (Text.byteWidth before) := by
  fun_induction readParts reading afterOperand text generalizing error with
  | case1 => cases faulty
  | case2 afterOperand text first rest found blanks cause =>
      rename_i scanned
      cases faulty
      refine ⟨text.takeWhile Text.isBlank, first, rest, afterOperand, cause, ?_,
        .blanks blank_of_mem_takeWhile, scanned, rfl⟩
      rw [← found, List.takeWhile_append_dropWhile]
  | case3 afterOperand text first rest found blanks lexeme scanned before =>
      rename_i ih
      obtain ⟨later, faultyLater, rfl⟩ :=
        Except.mapError_eq_error_iff.1 (Except.map_eq_error_iff.1 faulty)
      obtain ⟨between, next, others, last, cause, split, readUpTo, scannedNext, rfl⟩ :=
        ih faultyLater
      refine ⟨text.takeWhile Text.isBlank ++ lexeme.taken ++ between, next, others, last,
        cause, ?_, .lexeme blank_of_mem_takeWhile (not_blank_of_dropWhile found) scanned split
          readUpTo, scannedNext, ?_⟩
      · have covered := (Lexeme.covers_scan scanned).taken_append_rest
        rw [List.append_assoc, List.append_assoc, ← split, covered, ← found,
          List.takeWhile_append_dropWhile]
      · rw [ExpressionError.shift_shift, Text.byteWidth_append, Text.byteWidth_append]

/-- The error of a text is about characters of its first faulty lexeme. -/
theorem exists_isAbout_of_readParts {error : ExpressionError}
    (faulty : readParts reading afterOperand text = .error error) :
    ∃ before inner shown after last, text = before ++ inner ++ shown ++ after ∧
      ReadUpTo reading (inner ++ shown ++ after) last afterOperand before ∧
      error.column? = some (Text.byteWidth (before ++ inner) + 1) ∧
      error.IsAbout reading.settings inner shown after := by
  obtain ⟨before, first, rest, last, cause, rfl, readUpTo, scanned, rfl⟩ :=
    exists_scan_eq_error_of_readParts faulty
  obtain ⟨inner, shown, after, split, column, about⟩ := Lexeme.liesIn_scan scanned
  rw [split] at readUpTo
  refine ⟨before, inner, shown, after, last, by simp [split], readUpTo, ?_, about.shift _⟩
  rw [ExpressionError.column?_shift, column, Text.byteWidth_append]
  rfl

end

/-! ## Spans -/

namespace ExpressionError

variable {settings : Settings} {error : ExpressionError} {source : List Char}
variable {before inner shown after : List Char}

/-- The span of an error that begins inside a text. -/
theorem span?_of_column? {start : Nat} (column : error.column? = some (start + 1))
    (inside : start < Text.byteWidth source) :
    error.span? source =
      some { start
             stop := min (start + max (error.extent (Text.byteWidth source - start)) 1)
               (Text.byteWidth source) } := by
  rw [span?, column]
  dsimp only
  rw [if_pos (by omega)]

/-- The span has the bytes of the characters that the error is about. -/
theorem IsAbout.span?_eq (about : error.IsAbout settings inner shown after)
    (column : error.column? = some (Text.byteWidth before + 1)) :
    error.span? (before ++ shown ++ after) =
      some { start := Text.byteWidth before, stop := Text.byteWidth (before ++ shown) } := by
  have positive := Text.byteWidth_pos about.shown_ne_nil
  have size : Text.byteWidth (before ++ shown ++ after) =
      Text.byteWidth before + Text.byteWidth (shown ++ after) := by
    rw [List.append_assoc, Text.byteWidth_append]
  have atLeast : Text.byteWidth shown ≤ Text.byteWidth (shown ++ after) := by
    rw [Text.byteWidth_append]
    exact Nat.le_add_right _ _
  rw [span?_of_column? column (by omega), size, Nat.add_sub_cancel_left, about.extent_eq,
    Text.byteWidth_append before shown]
  congr 2
  omega

end ExpressionError

namespace Expression

variable {reading : Reading} {isByte : Bool} {text : String} {error : ExpressionError}

theorem readParts_of_read_error (faulty : read reading isByte text = .error error) :
    readParts reading false (Text.trim Text.isBlank text.toList) = .error error := by
  unfold read at faulty
  dsimp only at faulty
  split at faulty
  · next found =>
      cases faulty
      exact found
  · contradiction

/-- The span of an error of reading has exactly the bytes of the characters that the error
is about, which lie in the first faulty lexeme of the text. -/
theorem span?_of_read_error (faulty : read reading isByte text = .error error) :
    let source := Text.trim Text.isBlank text.toList
    ∃ before inner shown after last, source = before ++ inner ++ shown ++ after ∧
      shown ≠ [] ∧
      error.span? source =
        some { start := Text.byteWidth (before ++ inner)
               stop := Text.byteWidth (before ++ inner ++ shown) } ∧
      error.IsAbout reading.settings inner shown after ∧
      ReadUpTo reading (inner ++ shown ++ after) last false before := by
  intro source
  obtain ⟨before, inner, shown, after, last, split, readUpTo, column, about⟩ :=
    exists_isAbout_of_readParts (readParts_of_read_error faulty)
  refine ⟨before, inner, shown, after, last, split, about.shown_ne_nil, ?_, about, readUpTo⟩
  rw [show source = _ from split]
  exact about.span?_eq column

end Expression

/-- ASCII does not have the second character of the literal in `1 + 'aé'`, and its two
bytes are underlined. -/
theorem span?_of_unencodable_character :
    let text := "\t1 + 'aé'"
    let source := Text.trim Text.isBlank text.toList
    let error : ExpressionError := .unencodable 'é' .ascii 7
    Expression.read {} false text = .error error ∧
      ∃ before after, source = before ++ ['é'] ++ after ∧
        error.span? source =
          some { start := Text.byteWidth before, stop := Text.byteWidth (before ++ ['é']) } := by
  intro text source error
  have faulty : Expression.read {} false text = .error error := by decide +kernel
  obtain ⟨before, inner, shown, after, -, split, -, span, about, -⟩ :=
    Expression.span?_of_read_error faulty
  dsimp only [error] at about
  cases about with
  | unencodable literal => exact ⟨faulty, _, after, split, span⟩

end RelocExpr
