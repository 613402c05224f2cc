import RelocExpr.Except
import RelocExpr.Lexeme.Basic

/-!
# String literals

A string literal stands between two quotes of one kind.  Inside it the quote
itself is written twice, or, where escapes are in force, after a backslash; they
are in force only between double quotes.  A literal stands for the bytes of its
characters, and for the number that they spell when it is not data.
-/

namespace RelocExpr.Lexeme

/-- How the text between two quotes is read. -/
structure Quoting where
  charset : Charset
  quote : Char
  /-- A backslash begins an escape, and a doubled quote means nothing. -/
  escapes : Bool
  deriving DecidableEq, Repr

/-- The next thing in a string literal. -/
inductive StringPiece where
  | closing
  /-- Bytes of the literal, with the characters after the first that spell
  them. -/
  | content (bytes : List UInt8) (more : List Char)
  | faulty (error : ExpressionError)
  deriving DecidableEq, Repr

/-- Escapes of a single character, and the bytes they stand for. -/
def escapeCodes : List (Char × UInt8) :=
  [('a', 0x07), ('b', 0x08), ('e', 0x1B), ('f', 0x0C), ('n', 0x0A), ('r', 0x0D),
   ('t', 0x09), ('v', 0x0B), ('0', 0x00), ('\\', 0x5C), ('\'', 0x27), ('"', 0x22)]

/-- The escape after a backslash: one character, or `x` and one or two
hexadecimal digits. -/
def escapePiece : List Char → StringPiece
  | [] => .faulty (.openString 1)
  | code :: rest =>
      match escapeCodes.lookup code with
      | some byte => .content [byte] [code]
      | none =>
          let malformed : StringPiece :=
            .faulty (.malformedEscape (.ofList ['\\', code]) 1)
          if code = 'x' then
            let digits :=
              (rest.take 2).takeWhile fun digit =>
                (Text.digitValue? 16 digit).isSome
            match Text.readDigits? 16 digits with
            | some byte => .content [byte.toUInt8] (code :: digits)
            | none => malformed
          else malformed

/-- A character of the literal that stands for itself. -/
private def plainPiece (charset : Charset) (character : Char) (more : List Char) :
    StringPiece :=
  match charset.encode? character with
  | some bytes => .content bytes more
  | none => .faulty (.unencodable character charset 1)

/-- The piece of a literal that begins with a character. -/
def Quoting.piece (quoting : Quoting) (first : Char) (rest : List Char) :
    StringPiece :=
  if first = quoting.quote then
    if !quoting.escapes && rest.head? = some quoting.quote then
      plainPiece quoting.charset first [quoting.quote]
    else .closing
  else if quoting.escapes && first = '\\' then escapePiece rest
  else plainPiece quoting.charset first []

/-- The text between two quotes: its bytes, its characters with the closing
quote, and what follows it. -/
structure QuotedText where
  bytes : List UInt8
  taken : List Char
  rest : List Char
  deriving DecidableEq, Repr

/-- Put a piece in front of a quoted text. -/
def QuotedText.prepend (bytes : List UInt8) (taken : List Char)
    (later : QuotedText) : QuotedText :=
  { later with bytes := bytes ++ later.bytes, taken := taken ++ later.taken }

/-- Read up to the closing quote, after some bytes of the literal. -/
def Quoting.scan (quoting : Quoting) (offset : Nat) :
    List Char → Except ExpressionError QuotedText
  | [] => .error (.openString 1)
  | first :: rest =>
      match quoting.piece first rest with
      | .closing => .ok { bytes := [], taken := [first], rest }
      | .faulty error => .error (error.shift offset)
      | .content bytes more =>
          let taken := first :: rest.take more.length
          (scan quoting (offset + Text.byteWidth taken)
            (rest.drop more.length)).map (QuotedText.prepend bytes taken)
  termination_by text => text.length
  decreasing_by
    simp only [List.length_drop, List.length_cons]
    omega

/-- A string literal after its opening quote. -/
def scanString (reading : Reading) (quote : Char) (rest : List Char) :
    Except ExpressionError Lexeme :=
  let settings := reading.settings
  let quoting : Quoting :=
    { charset := settings.charset, quote
      escapes := settings.escapes && quote = '"' }
  match quoting.scan quote.utf8Size rest with
  | .error error => .error error
  | .ok quoted =>
      let taken := quote :: quoted.taken
      let literal := String.ofList taken
      let lexeme (part : Part) : Lexeme :=
        { parts := [part], taken, rest := quoted.rest }
      if reading.data then .ok (lexeme (.bytes quoted.bytes literal))
      else
        match shortString? quoted.bytes with
        | some value => .ok (lexeme (.number value))
        | none => .error (.longString literal 1)

/-! ## Pieces -/

section

variable {quoting : Quoting} {first code : Char} {rest more : List Char}
variable {bytes : List UInt8} {error : ExpressionError}

private theorem plainPiece_eq_content_iff {charset : Charset} {later : List Char} :
    plainPiece charset first more = .content bytes later ↔
      charset.encode? first = some bytes ∧ more = later := by
  rw [plainPiece]
  cases charset.encode? first <;> simp

private theorem plainPiece_eq_faulty_iff {charset : Charset} :
    plainPiece charset first more = .faulty error ↔
      charset.encode? first = none ∧ error = .unencodable first charset 1 := by
  rw [plainPiece]
  cases charset.encode? first <;> simp [eq_comm]

private theorem plainPiece_ne_closing (charset : Charset) (character : Char)
    (later : List Char) : plainPiece charset character later ≠ .closing := by
  rw [plainPiece]
  cases charset.encode? character <;> simp

private theorem escapePiece_ne_closing (text : List Char) : escapePiece text ≠ .closing := by
  unfold escapePiece
  split
  · simp
  · split
    · simp
    · dsimp only
      split
      · split <;> simp
      · simp

/-- A character without a meaning of its own stands for itself. -/
theorem Quoting.piece_of_encode? (notQuote : first ≠ quoting.quote)
    (notEscape : quoting.escapes = true → first ≠ '\\')
    (encoded : quoting.charset.encode? first = some bytes) :
    quoting.piece first rest = .content bytes [] := by
  have plain : ¬ (quoting.escapes && first = '\\') = true := by simpa using notEscape
  rw [piece, if_neg notQuote, if_neg plain]
  exact plainPiece_eq_content_iff.2 ⟨encoded, rfl⟩

theorem Quoting.piece_of_unencodable (notQuote : first ≠ quoting.quote)
    (notEscape : quoting.escapes = true → first ≠ '\\')
    (missing : quoting.charset.encode? first = none) :
    quoting.piece first rest = .faulty (.unencodable first quoting.charset 1) := by
  have plain : ¬ (quoting.escapes && first = '\\') = true := by simpa using notEscape
  rw [piece, if_neg notQuote, if_neg plain]
  exact plainPiece_eq_faulty_iff.2 ⟨missing, rfl⟩

theorem Quoting.piece_doubled (noEscapes : quoting.escapes = false)
    (encoded : quoting.charset.encode? quoting.quote = some bytes) :
    quoting.piece quoting.quote (quoting.quote :: rest) = .content bytes [quoting.quote] := by
  rw [piece, if_pos rfl, noEscapes, if_pos (by simp)]
  exact plainPiece_eq_content_iff.2 ⟨encoded, rfl⟩

theorem Quoting.piece_closing (last : quoting.escapes = true ∨ rest.head? ≠ some quoting.quote) :
    quoting.piece quoting.quote rest = .closing := by
  rw [piece, if_pos rfl, if_neg]
  rcases last with escapes | other
  · simp [escapes]
  · simp [other]

theorem Quoting.piece_escaped {byte : UInt8} (escapes : quoting.escapes = true)
    (notQuote : quoting.quote ≠ '\\') (known : escapeCodes.lookup code = some byte) :
    quoting.piece '\\' (code :: rest) = .content [byte] [code] := by
  rw [piece, if_neg notQuote.symm, if_pos (by simp [escapes]), escapePiece, known]

private theorem escapePiece_eq_content_cases (read : escapePiece rest = .content bytes more) :
    ∃ code digits later, more = code :: digits ∧ rest = more ++ later ∧
      ∀ digit ∈ digits, (Text.digitValue? 16 digit).isSome = true := by
  unfold escapePiece at read
  split at read
  · contradiction
  · next code later =>
      split at read
      · cases read
        exact ⟨code, [], later, rfl, rfl, by simp⟩
      · dsimp only at read
        split at read
        · split at read
          · cases read
            let isDigit (digit : Char) := (Text.digitValue? 16 digit).isSome
            obtain ⟨others, split⟩ := List.takeWhile_prefix isDigit (l := later.take 2)
            refine ⟨code, _, others ++ later.drop 2, rfl, ?_, ?_⟩
            · rw [List.cons_append, ← List.append_assoc, split, List.take_append_drop]
            · have digits := List.all_takeWhile (p := isDigit) (l := later.take 2)
              rwa [List.all_eq_true] at digits
          · contradiction
        · contradiction

private theorem escapePiece_eq_faulty_cases (faulty : escapePiece rest = .faulty error) :
    (rest = [] ∧ error = .openString 1) ∨
      ∃ code later, rest = code :: later ∧
        error = .malformedEscape (.ofList ['\\', code]) 1 := by
  unfold escapePiece at faulty
  split at faulty
  · cases faulty
    exact .inl ⟨rfl, rfl⟩
  · next code later =>
      right
      split at faulty
      · contradiction
      · dsimp only at faulty
        split at faulty
        · split at faulty
          · contradiction
          · cases faulty
            exact ⟨code, later, rfl, rfl⟩
        · cases faulty
          exact ⟨code, later, rfl, rfl⟩

/-- A piece that is content is a plain character, a doubled quote or an escape. -/
theorem Quoting.piece_eq_content_cases (read : quoting.piece first rest = .content bytes more) :
    (more = [] ∧ first ≠ quoting.quote ∧ (quoting.escapes = true → first ≠ '\\')) ∨
      (more = [quoting.quote] ∧ rest.head? = some quoting.quote ∧
        first = quoting.quote ∧ quoting.escapes = false) ∨
      (first = '\\' ∧ quoting.escapes = true ∧
        ∃ code digits later, more = code :: digits ∧ rest = more ++ later ∧
          ∀ digit ∈ digits, (Text.digitValue? 16 digit).isSome = true) := by
  unfold piece at read
  split at read
  · next isQuote =>
      split at read
      · next doubled =>
          simp only [Bool.and_eq_true, Bool.not_eq_true', decide_eq_true_eq] at doubled
          obtain ⟨-, rfl⟩ := plainPiece_eq_content_iff.1 read
          exact .inr (.inl ⟨rfl, doubled.2, isQuote, doubled.1⟩)
      · contradiction
  · next notQuote =>
      split at read
      · next escape =>
          simp only [Bool.and_eq_true, decide_eq_true_eq] at escape
          exact .inr (.inr ⟨escape.2, escape.1, escapePiece_eq_content_cases read⟩)
      · next plain =>
          obtain ⟨-, rfl⟩ := plainPiece_eq_content_iff.1 read
          exact .inl ⟨rfl, notQuote, by simpa using plain⟩

/-- A faulty piece is a character that the charset does not have, or a backslash that no
escape begins with. -/
theorem Quoting.piece_eq_faulty_cases (faulty : quoting.piece first rest = .faulty error) :
    error = .unencodable first quoting.charset 1 ∨
      (first = '\\' ∧ quoting.escapes = true ∧ first ≠ quoting.quote ∧
        ((rest = [] ∧ error = .openString 1) ∨
          ∃ code later, rest = code :: later ∧
            error = .malformedEscape (.ofList ['\\', code]) 1)) := by
  unfold piece at faulty
  split at faulty
  · split at faulty
    · exact .inl (plainPiece_eq_faulty_iff.1 faulty).2
    · contradiction
  · next notQuote =>
      split at faulty
      · next escape =>
          simp only [Bool.and_eq_true, decide_eq_true_eq] at escape
          exact .inr ⟨escape.2, escape.1, notQuote, escapePiece_eq_faulty_cases faulty⟩
      · exact .inl (plainPiece_eq_faulty_iff.1 faulty).2

end

/-! ## Texts up to the closing quote -/

theorem QuotedText.prepend_prepend (later : QuotedText) (outer inner : List UInt8)
    (taken others : List Char) :
    (later.prepend inner others).prepend outer taken =
      later.prepend (outer ++ inner) (taken ++ others) := by
  simp [QuotedText.prepend]

section

variable {quoting : Quoting} {first : Char} {rest more : List Char} (offset : Nat)

theorem Quoting.scan_of_content {bytes : List UInt8}
    (read : quoting.piece first (more ++ rest) = .content bytes more) :
    quoting.scan offset (first :: more ++ rest) =
      (quoting.scan (offset + Text.byteWidth (first :: more)) rest).map
        (QuotedText.prepend bytes (first :: more)) := by
  rw [List.cons_append, scan, read]
  simp only [List.take_left, List.drop_left]

theorem Quoting.scan_of_faulty {error : ExpressionError}
    (faulty : quoting.piece first rest = .faulty error) :
    quoting.scan offset (first :: rest) = .error (error.shift offset) := by
  rw [scan, faulty]

theorem Quoting.scan_of_closing (closing : quoting.piece first rest = .closing) :
    quoting.scan offset (first :: rest) = .ok { bytes := [], taken := [first], rest } := by
  rw [scan, closing]

end

theorem Quoting.scan_taken_append_rest {quoting : Quoting} {offset : Nat}
    {text : List Char} {quoted : QuotedText}
    (scanned : quoting.scan offset text = .ok quoted) :
    quoted.taken ++ quoted.rest = text := by
  fun_induction Quoting.scan quoting offset text generalizing quoted with
  | case1 => contradiction
  | case2 => cases scanned; rfl
  | case3 => contradiction
  | case4 offset first rest bytes more _ taken =>
      rename_i ih
      obtain ⟨later, found, rfl⟩ := Except.map_eq_ok_iff.1 scanned
      simp [QuotedText.prepend, taken, ih found]

/-- Only the quote closes a literal. -/
theorem Quoting.eq_quote_of_piece {quoting : Quoting} {first : Char} {rest : List Char}
    (closing : quoting.piece first rest = .closing) :
    first = quoting.quote ∧ (quoting.escapes = true ∨ rest.head? ≠ some quoting.quote) := by
  unfold piece at closing
  split at closing
  · next isQuote =>
      split at closing
      · exact absurd closing (plainPiece_ne_closing _ _ _)
      · next last =>
          refine ⟨isQuote, ?_⟩
          cases escapes : quoting.escapes with
          | true => exact .inl rfl
          | false => exact .inr fun doubled => last (by simp [escapes, doubled])
  · split at closing
    · exact absurd closing (escapePiece_ne_closing _)
    · exact absurd closing (plainPiece_ne_closing _ _ _)

/-- A literal ends with its quote. -/
theorem Quoting.exists_taken_eq_append_quote {quoting : Quoting} {offset : Nat}
    {text : List Char} {quoted : QuotedText}
    (scanned : quoting.scan offset text = .ok quoted) :
    ∃ body, quoted.taken = body ++ [quoting.quote] := by
  fun_induction Quoting.scan quoting offset text generalizing quoted with
  | case1 => contradiction
  | case2 offset first rest closing =>
      cases scanned
      exact ⟨[], congrArg ([·]) (eq_quote_of_piece closing).1⟩
  | case3 => contradiction
  | case4 offset first rest bytes more _ taken =>
      rename_i ih
      obtain ⟨later, found, rfl⟩ := Except.map_eq_ok_iff.1 scanned
      obtain ⟨body, ends⟩ := ih found
      exact ⟨taken ++ body, by simp [QuotedText.prepend, ends]⟩

theorem covers_scanString {reading : Reading} {quote : Char} {rest : List Char}
    {lexeme : Lexeme} (scanned : scanString reading quote rest = .ok lexeme) :
    lexeme.Covers quote rest := by
  unfold scanString at scanned
  dsimp only at scanned
  split at scanned
  · contradiction
  · next quoted found =>
      have tail := Quoting.scan_taken_append_rest found
      split at scanned
      · cases scanned
        exact ⟨quoted.taken, rfl, tail⟩
      · split at scanned
        · cases scanned
          exact ⟨quoted.taken, rfl, tail⟩
        · contradiction

theorem stands_scanString {reading : Reading} {quote : Char} {rest : List Char}
    {lexeme : Lexeme} (scanned : scanString reading quote rest = .ok lexeme) :
    lexeme.Stands reading := by
  unfold scanString at scanned
  dsimp only at scanned
  split at scanned
  · contradiction
  · split at scanned
    · next data =>
        cases scanned
        exact .part (by simp) fun _ => data
    · split at scanned
      · cases scanned
        exact .part (by simp [Part.number]) (by simp [Part.number, Part.isBytes])
      · contradiction

/-! ## Literals -/

/-- How a string literal with this quote is read. -/
def Quoting.ofSettings (settings : Settings) (quote : Char) : Quoting :=
  { charset := settings.charset, quote, escapes := settings.escapes && quote = '"' }

section

variable {reading : Reading} {quote : Char} {rest : List Char} {error : ExpressionError}

theorem scanString_of_scan_error
    (faulty : (Quoting.ofSettings reading.settings quote).scan quote.utf8Size rest =
      .error error) : scanString reading quote rest = .error error := by
  rw [Quoting.ofSettings] at faulty
  simp only [scanString, faulty]

theorem scanString_of_scan {quoted : QuotedText} (data : reading.data = true)
    (scanned : (Quoting.ofSettings reading.settings quote).scan quote.utf8Size rest =
      .ok quoted) :
    scanString reading quote rest =
      .ok { parts := [.bytes quoted.bytes (.ofList (quote :: quoted.taken))]
            taken := quote :: quoted.taken
            rest := quoted.rest } := by
  rw [Quoting.ofSettings] at scanned
  simp only [scanString, scanned, data, if_true]

/-- The part that a literal stands for, unless it is too long for a number. -/
def literalPart? (data : Bool) (bytes : List UInt8) (literal : String) : Option Part :=
  if data then some (.bytes bytes literal) else (shortString? bytes).map .number

theorem scanString_eq_ok_iff {lexeme : Lexeme} :
    scanString reading quote rest = .ok lexeme ↔
      ∃ quoted part,
        (Quoting.ofSettings reading.settings quote).scan quote.utf8Size rest = .ok quoted ∧
          literalPart? reading.data quoted.bytes (.ofList (quote :: quoted.taken)) = some part ∧
          lexeme = { parts := [part], taken := quote :: quoted.taken, rest := quoted.rest } := by
  rw [Quoting.ofSettings, scanString]
  cases Quoting.scan _ quote.utf8Size rest with
  | error error => simp
  | ok quoted =>
      cases reading.data with
      | true => simp [literalPart?, eq_comm]
      | false => cases short : shortString? quoted.bytes <;> simp [literalPart?, short, eq_comm]

/-- A literal is faulty inside, or too long. -/
theorem scanString_eq_error_cases (faulty : scanString reading quote rest = .error error) :
    (Quoting.ofSettings reading.settings quote).scan quote.utf8Size rest = .error error ∨
      ∃ quoted : QuotedText, quoted.taken ++ quoted.rest = rest ∧
        error = .longString (.ofList (quote :: quoted.taken)) 1 := by
  unfold scanString at faulty
  dsimp only at faulty
  split at faulty
  · next found =>
      cases faulty
      exact .inl found
  · next quoted found =>
      split at faulty
      · contradiction
      · split at faulty
        · contradiction
        · cases faulty
          exact .inr ⟨quoted, Quoting.scan_taken_append_rest found, rfl⟩

end

/-! ## Errors -/

private theorem category_of_plainPiece {charset : Charset} {character : Char}
    {more : List Char} {error : ExpressionError}
    (faulty : plainPiece charset character more = .faulty error) :
    error.category = .lexical := by
  unfold plainPiece at faulty
  split at faulty
  · contradiction
  · cases faulty
    rfl

theorem category_of_escapePiece {text : List Char} {error : ExpressionError}
    (faulty : escapePiece text = .faulty error) : error.category = .lexical := by
  unfold escapePiece at faulty
  split at faulty
  · cases faulty
    rfl
  · split at faulty
    · contradiction
    · dsimp only at faulty
      split at faulty
      · split at faulty
        · contradiction
        · cases faulty
          rfl
      · cases faulty
        rfl

theorem Quoting.category_of_piece {quoting : Quoting} {first : Char}
    {rest : List Char} {error : ExpressionError}
    (faulty : quoting.piece first rest = .faulty error) :
    error.category = .lexical := by
  unfold Quoting.piece at faulty
  split at faulty
  · split at faulty
    · exact category_of_plainPiece faulty
    · contradiction
  · split at faulty
    · exact category_of_escapePiece faulty
    · exact category_of_plainPiece faulty

theorem Quoting.category_of_scan {quoting : Quoting} {offset : Nat}
    {text : List Char} {error : ExpressionError}
    (faulty : quoting.scan offset text = .error error) :
    error.category = .lexical := by
  fun_induction Quoting.scan quoting offset text with
  | case1 =>
      cases faulty
      rfl
  | case2 => contradiction
  | case3 offset first rest cause found =>
      cases faulty
      simpa using category_of_piece found
  | case4 offset first rest bytes more found taken ih =>
      exact ih (Except.map_eq_error_iff.1 faulty)

theorem category_of_scanString {reading : Reading} {quote : Char}
    {rest : List Char} {error : ExpressionError}
    (faulty : scanString reading quote rest = .error error) :
    error.category = .lexical := by
  unfold scanString at faulty
  dsimp only at faulty
  split at faulty
  · next found =>
      cases faulty
      exact Quoting.category_of_scan found
  · split at faulty
    · contradiction
    · split at faulty
      · contradiction
      · cases faulty
        rfl

end RelocExpr.Lexeme
