import RelocExpr.Except
import RelocExpr.Expression

/-!
# How strings are written

Between its quotes a literal has the characters of its content, with a second quote or a
backslash at those that would mean something else.  As data every content is read back from
its literal, as the bytes of its characters.  Where the charset does not have all of them,
the first one that it does not have is refused.
-/

namespace RelocExpr

namespace Lexeme.Quoting

variable {quoting : Quoting} {character first : Char} {more rest content : List Char}
variable {bytes : List UInt8}

/-- A character of the content as it is written between the quotes. -/
def write (quoting : Quoting) (character : Char) : List Char :=
  if quoting.escapes then
    if character = quoting.quote ∨ character = '\\' then ['\\', character] else [character]
  else if character = quoting.quote then [quoting.quote, quoting.quote]
  else [character]

/-- The content between its quotes. -/
def literal (quoting : Quoting) (content : List Char) : List Char :=
  quoting.quote :: (content.flatMap quoting.write ++ [quoting.quote])

/-! ## One character -/

/-- The characters with a meaning in literals are in every charset. -/
theorem encode?_special (charset : Charset)
    (special : character = '\'' ∨ character = '"' ∨ character = '\\') :
    charset.encode? character = some [.ofNat character.toNat] := by
  apply charset.encode?_of_lt
  rcases special with rfl | rfl | rfl
  · decide
  · decide
  · decide

/-- After a backslash they stand for themselves. -/
theorem lookup_escapeCodes_special
    (special : character = '\'' ∨ character = '"' ∨ character = '\\') :
    escapeCodes.lookup character = some (.ofNat character.toNat) := by
  rcases special with rfl | rfl | rfl
  · rfl
  · rfl
  · rfl

variable (isQuote : quoting.quote = '\'' ∨ quoting.quote = '"')

include isQuote

theorem quote_ne_backslash : quoting.quote ≠ '\\' := by
  rcases isQuote with equal | equal
  · rw [equal]
    decide
  · rw [equal]
    decide

/-- A character that is written between the quotes is read as its bytes. -/
theorem exists_piece_of_write (encoded : quoting.charset.encode? character = some bytes) :
    ∃ first more, quoting.write character = first :: more ∧
      ∀ rest, quoting.piece first (more ++ rest) = .content bytes more := by
  have special (meant : character = quoting.quote ∨ character = '\\') :
      character = '\'' ∨ character = '"' ∨ character = '\\' := by
    rcases meant with rfl | meant
    · exact isQuote.imp_right .inl
    · exact .inr (.inr meant)
  unfold write
  cases escapes : quoting.escapes with
  | true =>
      rw [if_pos rfl]
      split
      · next meant =>
          obtain rfl := Option.some.inj
            ((encode?_special quoting.charset (special meant)).symm.trans encoded)
          refine ⟨'\\', [character], rfl, ?_⟩
          intro rest
          exact piece_escaped escapes (quote_ne_backslash isQuote)
            (lookup_escapeCodes_special (special meant))
      · next plain =>
          refine ⟨character, [], rfl, ?_⟩
          intro rest
          exact piece_of_encode? (fun equal => plain (.inl equal))
            (fun _ equal => plain (.inr equal)) encoded
  | false =>
      rw [if_neg Bool.false_ne_true]
      split
      · next equal =>
          refine ⟨quoting.quote, [quoting.quote], rfl, ?_⟩
          intro rest
          exact piece_doubled escapes (equal ▸ encoded)
      · next plain =>
          refine ⟨character, [], rfl, ?_⟩
          intro rest
          exact piece_of_encode? plain (by simp [escapes]) encoded

/-- A character that the charset does not have has no meaning of its own. -/
theorem plain_of_missing (missing : quoting.charset.encode? character = none) :
    character ≠ quoting.quote ∧ character ≠ '\\' := by
  have notSpecial (special : character = '\'' ∨ character = '"' ∨ character = '\\') : False := by
    rw [encode?_special quoting.charset special] at missing
    contradiction
  constructor
  · intro equal
    exact notSpecial (equal ▸ isQuote.imp_right .inl)
  · intro equal
    exact notSpecial (.inr (.inr equal))

theorem piece_of_missing (missing : quoting.charset.encode? character = none) :
    quoting.piece character rest = .faulty (.unencodable character quoting.charset 1) := by
  obtain ⟨notQuote, notBackslash⟩ := plain_of_missing isQuote missing
  exact piece_of_unencodable notQuote (fun _ => notBackslash) missing

theorem write_of_missing (missing : quoting.charset.encode? character = none) :
    quoting.write character = [character] := by
  obtain ⟨notQuote, notBackslash⟩ := plain_of_missing isQuote missing
  simp [write, notQuote, notBackslash]

/-! ## Up to the closing quote -/

/-- Behind the written content the literal is read as before it, with the bytes of the
content in front. -/
theorem scan_write_append {encodings : List (List UInt8)}
    (encoded : content.mapM quoting.charset.encode? = some encodings) (offset : Nat) :
    quoting.scan offset (content.flatMap quoting.write ++ rest) =
      (quoting.scan (offset + Text.byteWidth (content.flatMap quoting.write)) rest).map
        (QuotedText.prepend encodings.flatten (content.flatMap quoting.write)) := by
  induction content generalizing encodings offset with
  | nil =>
      cases encoded
      change quoting.scan offset rest = (quoting.scan offset rest).map _
      cases quoting.scan offset rest with
      | error => rfl
      | ok quoted => rfl
  | cons character content ih =>
      simp only [List.mapM_cons, Option.bind_eq_bind, Option.bind_eq_some_iff,
        Option.pure_def, Option.some.injEq] at encoded
      obtain ⟨bytes, encodedHead, others, encodedRest, rfl⟩ := encoded
      obtain ⟨first, more, written, read⟩ := exists_piece_of_write isQuote encodedHead
      rw [List.flatMap_cons, written, List.append_assoc, scan_of_content offset (read _),
        ih encodedRest, Text.byteWidth_append, ← Nat.add_assoc, List.flatten_cons]
      cases quoting.scan _ rest with
      | error => rfl
      | ok quoted => exact congrArg Except.ok (QuotedText.prepend_prepend quoted _ _ _ _)

/-- A literal is read to its last quote. -/
theorem scan_write_closing {encodings : List (List UInt8)}
    (encoded : content.mapM quoting.charset.encode? = some encodings) (offset : Nat) :
    quoting.scan offset (content.flatMap quoting.write ++ [quoting.quote]) =
      .ok { bytes := encodings.flatten
            taken := content.flatMap quoting.write ++ [quoting.quote]
            rest := [] } := by
  rw [scan_write_append isQuote encoded, scan_of_closing _ (piece_closing (.inr (by simp)))]
  simp [Except.map, QuotedText.prepend]

/-- It is refused at the first character that the charset does not have. -/
theorem scan_write_missing {before after : List Char} {encodings : List (List UInt8)}
    (encoded : before.mapM quoting.charset.encode? = some encodings)
    (missing : quoting.charset.encode? character = none) (offset : Nat) :
    quoting.scan offset ((before ++ character :: after).flatMap quoting.write ++ rest) =
      .error (.unencodable character quoting.charset
        (offset + Text.byteWidth (before.flatMap quoting.write) + 1)) := by
  rw [List.flatMap_append, List.flatMap_cons, write_of_missing isQuote missing,
    List.append_assoc, scan_write_append isQuote encoded, List.append_assoc,
    List.singleton_append, scan_of_faulty _ (piece_of_missing isQuote missing)]
  rfl

end Lexeme.Quoting

/-! ## Whole literals -/

section

variable {reading : Reading} {afterOperand : Bool} {quote : Char} {rest : List Char}
variable (isQuote : quote = '\'' ∨ quote = '"')

include isQuote

theorem isBlank_of_isQuote : Text.isBlank quote = false := by
  rcases isQuote with rfl | rfl
  · rfl
  · rfl

theorem Lexeme.scan_of_isQuote :
    Lexeme.scan reading afterOperand quote rest = Lexeme.scanString reading quote rest := by
  rcases isQuote with rfl | rfl
  · rfl
  · rfl

theorem readParts_of_literal (data : reading.data = true) {quoted : Lexeme.QuotedText}
    (scanned : (Lexeme.Quoting.ofSettings reading.settings quote).scan quote.utf8Size rest =
      .ok quoted) (whole : quoted.rest = []) :
    readParts reading afterOperand (quote :: rest) =
      .ok [.bytes quoted.bytes (.ofList (quote :: quoted.taken))] := by
  have lexeme : Lexeme.scan reading afterOperand quote rest = _ :=
    (Lexeme.scan_of_isQuote isQuote).trans (Lexeme.scanString_of_scan data scanned)
  rw [readParts_cons_of_scan (isBlank_of_isQuote isQuote) lexeme, whole,
    readParts_of_blank rfl]
  rfl

end

open Lexeme (Quoting)

/-- The content between quotes of this kind, as the settings have it written. -/
def Settings.literal (settings : Settings) (quote : Char) (content : List Char) : String :=
  .ofList ((Quoting.ofSettings settings quote).literal content)

/-- As data, what is written between quotes of one kind is read as the bytes of its
characters, with the literal as its text.  If the charset does not have all the characters,
the first that it does not have is refused, in its column of the literal. -/
theorem Expression.read_literal (reading : Reading) (isByte : Bool) {quote : Char}
    (isQuote : quote = '\'' ∨ quote = '"') (data : reading.data = true) (content : List Char) :
    (∀ encodings, content.mapM reading.settings.charset.encode? = some encodings →
      Expression.read reading isByte (reading.settings.literal quote content) =
        .ok
          { source := reading.settings.literal quote content
            parts := [.bytes encodings.flatten (reading.settings.literal quote content)]
            isByte
            isPostfix := false }) ∧
    (∀ before character after, content = before ++ character :: after →
      (before.mapM reading.settings.charset.encode?).isSome = true →
      reading.settings.charset.encode? character = none →
      Expression.read reading isByte (reading.settings.literal quote content) =
        .error (.unencodable character reading.settings.charset
          (Text.byteWidth
            (quote :: before.flatMap (Quoting.ofSettings reading.settings quote).write) + 1))) := by
  let quoting := Quoting.ofSettings reading.settings quote
  have notBlank := isBlank_of_isQuote isQuote
  have trimmed : Text.trim Text.isBlank (quoting.literal content) = quoting.literal content :=
    Text.trim_of_ends notBlank notBlank
  have quoteOfQuoting : quoting.quote = '\'' ∨ quoting.quote = '"' := isQuote
  constructor
  · intro encodings encoded
    have scanned := quoting.scan_write_closing quoteOfQuoting encoded quote.utf8Size
    have parts : readParts reading false (quoting.literal content) = _ :=
      readParts_of_literal isQuote data scanned rfl
    rw [Expression.read, Settings.literal, String.toList_ofList, trimmed, parts]
    rfl
  · intro before character after split someEncodings missing
    obtain ⟨encodings, encoded⟩ := Option.isSome_iff_exists.1 someEncodings
    have scanned : quoting.scan quote.utf8Size
        (content.flatMap quoting.write ++ [quoting.quote]) = _ :=
      split ▸ quoting.scan_write_missing quoteOfQuoting encoded missing quote.utf8Size
    have faulty : readParts reading false (quoting.literal content) = _ :=
      readParts_cons_of_scan_error notBlank
        ((Lexeme.scan_of_isQuote isQuote).trans (Lexeme.scanString_of_scan_error scanned))
    rw [Expression.read, Settings.literal, String.toList_ofList, trimmed, faulty]
    rfl

theorem read_literal_of_escaped_quote :
    ('"' = '\'' ∨ '"' = '"') ∧
    Expression.read { settings := { escapes := true }, data := true } false "\"\\\"!\"" =
      .ok
        { source := "\"\\\"!\"", parts := [.bytes [0x22, 0x21] "\"\\\"!\""]
          isByte := false, isPostfix := false } ∧
    Expression.read { settings := { escapes := true }, data := true } false "\"\\\"é!\"" =
      .error (.unencodable 'é' .ascii 4) := by
  have isQuote : '"' = '\'' ∨ '"' = '"' := .inr rfl
  have encodable := Expression.read_literal
    { settings := { escapes := true }, data := true } false isQuote rfl ['"', '!']
  have missing := Expression.read_literal
    { settings := { escapes := true }, data := true } false isQuote rfl ['"', 'é', '!']
  exact ⟨isQuote, encodable.1 [[0x22], [0x21]] (by decide),
    missing.2 ['"'] 'é' ['!'] rfl (by decide) (by decide)⟩

end RelocExpr
