import RelocExpr.Lexeme.Number
import RelocExpr.Lexeme.Quoted
import RelocExpr.Lexeme.Word

/-!
# Reading the parts of a text

The first character of a lexeme decides what it is.  Blanks separate lexemes and
mean nothing else.  Only a sign depends on what was read before it: it is binary
after a part that may end an operand.
-/

namespace RelocExpr

namespace Lexeme

/-- The part that a single character stands for. -/
def punctuation? (afterOperand : Bool) (character : Char) : Option Part :=
  match character with
  | '+' =>
      some (.operator (if afterOperand then .binary .plus else .unary .plus))
  | '-' =>
      some (.operator (if afterOperand then .binary .minus else .unary .minus))
  | '*' => some (.operator (.binary .times))
  | '/' => some (.operator (.binary .divide))
  | '=' => some (.operator (.binary .eq))
  | '(' => some .opening
  | ')' => some .closing
  | _ => none

/-- The lexeme that begins with a character.  The columns of its errors count
from that character. -/
def scan (reading : Reading) (afterOperand : Bool) (first : Char)
    (rest : List Char) : Except ExpressionError Lexeme :=
  if first.isDigit then scanNumber reading.settings.radix.base first rest
  else if first = '#' then scanMarked 16 first rest
  else if first = '%' then scanMarked 2 first rest
  else if first = '\'' || first = '"' then scanString reading first rest
  else if first.toLower = 'x' && rest.head? = some '\'' then
    scanHexString first '\'' rest.tail
  else
    match punctuation? afterOperand first with
    | some part => .ok { parts := [part], taken := [first], rest }
    | none =>
        if first = ':' || isWordStart first then scanWord reading first rest
        else .error (.strayCharacter first 1)

theorem covers_scan {reading : Reading} {afterOperand : Bool} {first : Char}
    {rest : List Char} {lexeme : Lexeme}
    (scanned : scan reading afterOperand first rest = .ok lexeme) :
    lexeme.Covers first rest := by
  unfold scan at scanned
  split at scanned
  · exact covers_scanNumber scanned
  split at scanned
  · exact covers_scanMarked scanned
  split at scanned
  · exact covers_scanMarked scanned
  split at scanned
  · exact covers_scanString scanned
  split at scanned
  · next hexString =>
      simp only [Bool.and_eq_true, decide_eq_true_eq] at hexString
      obtain ⟨digits, rfl⟩ := List.head?_eq_some_iff.1 hexString.2
      exact covers_scanHexString scanned
  split at scanned
  · cases scanned
    exact ⟨[], rfl, rfl⟩
  split at scanned
  · exact covers_scanWord scanned
  · contradiction

theorem punctuation?_eq_some {afterOperand : Bool} {character : Char} {part : Part}
    (found : punctuation? afterOperand character = some part) :
    part ≠ .operator (.unary .nul) ∧ part.isBytes = false := by
  unfold punctuation? at found
  cases afterOperand <;> split at found <;> cases found <;> exact ⟨by simp, rfl⟩

theorem stands_scan {reading : Reading} {afterOperand : Bool} {first : Char}
    {rest : List Char} {lexeme : Lexeme}
    (scanned : scan reading afterOperand first rest = .ok lexeme) :
    lexeme.Stands reading := by
  unfold scan at scanned
  split at scanned
  · exact stands_scanNumber scanned reading
  split at scanned
  · exact stands_scanMarked scanned reading
  split at scanned
  · exact stands_scanMarked scanned reading
  split at scanned
  · exact stands_scanString scanned
  split at scanned
  · exact stands_scanHexString scanned reading
  split at scanned
  · next found =>
      cases scanned
      have single := punctuation?_eq_some found
      exact .part single.1 (by simp [single.2])
  split at scanned
  · exact stands_scanWord scanned
  · contradiction

theorem category_of_scan {reading : Reading} {afterOperand : Bool} {first : Char}
    {rest : List Char} {error : ExpressionError}
    (faulty : scan reading afterOperand first rest = .error error) :
    error.category = .lexical := by
  unfold scan at faulty
  split at faulty
  · exact category_of_scanNumber faulty
  split at faulty
  · exact category_of_scanMarked faulty
  split at faulty
  · exact category_of_scanMarked faulty
  split at faulty
  · exact category_of_scanString faulty
  split at faulty
  · exact category_of_scanHexString faulty
  split at faulty
  · contradiction
  split at faulty
  · exact category_of_scanWord faulty
  · cases faulty
    rfl

/-- A sign after this lexeme is binary. -/
def endsOperand (lexeme : Lexeme) : Bool :=
  lexeme.parts.getLast?.any Part.endsOperand

end Lexeme

/-- The parts of a text in their order, or the first error in it. -/
def readParts (reading : Reading) (afterOperand : Bool) (text : List Char) :
    Except ExpressionError (List Part) :=
  match _found : text.dropWhile Text.isBlank with
  | [] => .ok []
  | first :: rest =>
      let blanks := Text.byteWidth (text.takeWhile Text.isBlank)
      match _scanned : Lexeme.scan reading afterOperand first rest with
      | .error error => .error (error.shift blanks)
      | .ok lexeme =>
          let before := blanks + Text.byteWidth lexeme.taken
          ((readParts reading lexeme.endsOperand lexeme.rest).mapError
            (ExpressionError.shift before)).map (lexeme.parts ++ ·)
  termination_by text.length
  decreasing_by
    have shorter := (Lexeme.covers_scan _scanned).length_rest_le
    have suffix := (List.dropWhile_suffix Text.isBlank (l := text)).length_le
    rw [_found] at suffix
    simp only [List.length_cons] at suffix
    omega

section

variable {reading : Reading} {afterOperand : Bool} {text rest : List Char}
variable {first : Char}

/-- Blanks alone have no parts. -/
theorem readParts_of_blank (blank : text.dropWhile Text.isBlank = []) :
    readParts reading afterOperand text = .ok [] := by
  unfold readParts
  split
  · rfl
  · simp_all

/-- The first faulty lexeme ends the reading. -/
theorem readParts_of_scan_error {error : ExpressionError}
    (found : text.dropWhile Text.isBlank = first :: rest)
    (faulty : Lexeme.scan reading afterOperand first rest = .error error) :
    readParts reading afterOperand text =
      .error (error.shift (Text.byteWidth (text.takeWhile Text.isBlank))) := by
  unfold readParts
  split
  · simp_all
  · next found' =>
      rw [found] at found'
      cases found'
      dsimp only
      split <;> simp_all

/-- The parts of a text are those of its first lexeme and those of its rest, in
which an error is found as many bytes later as come before it. -/
theorem readParts_of_scan {lexeme : Lexeme}
    (found : text.dropWhile Text.isBlank = first :: rest)
    (scanned : Lexeme.scan reading afterOperand first rest = .ok lexeme) :
    readParts reading afterOperand text =
      ((readParts reading lexeme.endsOperand lexeme.rest).mapError
        (ExpressionError.shift
          (Text.byteWidth (text.takeWhile Text.isBlank) +
            Text.byteWidth lexeme.taken))).map (lexeme.parts ++ ·) := by
  conv => lhs; unfold readParts
  split
  · simp_all
  · next found' =>
      rw [found] at found'
      cases found'
      dsimp only
      split
      · simp_all
      · next scanned' =>
          rw [scanned] at scanned'
          cases scanned'
          rfl

/-- Without blanks at its front a text begins with its first lexeme. -/
theorem readParts_cons_of_scan {lexeme : Lexeme} (notBlank : Text.isBlank first = false)
    (scanned : Lexeme.scan reading afterOperand first rest = .ok lexeme) :
    readParts reading afterOperand (first :: rest) =
      ((readParts reading lexeme.endsOperand lexeme.rest).mapError
        (ExpressionError.shift (Text.byteWidth lexeme.taken))).map (lexeme.parts ++ ·) := by
  have found : (first :: rest).dropWhile Text.isBlank = first :: rest :=
    List.dropWhile_cons_of_neg (by simp [notBlank])
  rw [readParts_of_scan found scanned, List.takeWhile_cons_of_neg (by simp [notBlank])]
  simp

theorem readParts_cons_of_scan_error {error : ExpressionError}
    (notBlank : Text.isBlank first = false)
    (faulty : Lexeme.scan reading afterOperand first rest = .error error) :
    readParts reading afterOperand (first :: rest) = .error error := by
  have found : (first :: rest).dropWhile Text.isBlank = first :: rest :=
    List.dropWhile_cons_of_neg (by simp [notBlank])
  rw [readParts_of_scan_error found faulty, List.takeWhile_cons_of_neg (by simp [notBlank])]
  simp

end

end RelocExpr
