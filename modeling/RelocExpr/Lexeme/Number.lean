import RelocExpr.Lexeme.Basic

/-!
# Numbers

A number begins with a decimal digit and goes on as long as there are letters
and digits.  A letter at its end may name the radix, unless it is a digit of the
radix of the settings.  Marks before the digits, and `x` before digits between
quotes, name a radix as well.
-/

namespace RelocExpr.Lexeme

/-- The digits of a number and their radix, which a last letter may name. -/
def splitSuffix (radix : Nat) (literal : List Char) : List Char × Nat :=
  match literal.getLast? with
  | none => (literal, radix)
  | some last =>
      let digits := literal.dropLast
      let isDigit := (Text.digitValue? radix last).isSome
      match last.toLower with
      | 'h' => (digits, 16)
      | 'o' => (digits, 8)
      | 'q' => (digits, 8)
      | 'b' => if isDigit then (literal, radix) else (digits, 2)
      | 'd' => if isDigit then (literal, radix) else (digits, 10)
      | _ => (literal, radix)

/-- The value of a number without a mark before it. -/
def numberValue? (radix : Nat) (literal : List Char) : Option UInt16 :=
  let (digits, radix) := splitSuffix radix literal
  Text.readDigits? radix digits

/-- A lexeme that is a number, or the error that it is none. -/
private def numeral (value? : Option UInt16) (taken rest : List Char) :
    Except ExpressionError Lexeme :=
  match value? with
  | some value => .ok { parts := [.number value], taken, rest }
  | none => .error (.malformedNumber (.ofList taken) 1)

/-- A number that begins with a decimal digit. -/
def scanNumber (radix : Nat) (first : Char) (rest : List Char) :
    Except ExpressionError Lexeme :=
  let literal := first :: rest.takeWhile Char.isAlphanum
  numeral (numberValue? radix literal) literal (rest.dropWhile Char.isAlphanum)

/-- A number after a mark that names its radix. -/
def scanMarked (radix : Nat) (mark : Char) (rest : List Char) :
    Except ExpressionError Lexeme :=
  let digits := rest.takeWhile Char.isAlphanum
  numeral (Text.readDigits? radix digits) (mark :: digits)
    (rest.dropWhile Char.isAlphanum)

/-- Hexadecimal digits between quotes, after an `x` and the opening quote; no
digits stand for zero. -/
def scanHexString (mark quote : Char) (rest : List Char) :
    Except ExpressionError Lexeme :=
  let digits := rest.takeWhile (· ≠ quote)
  match rest.dropWhile (· ≠ quote) with
  | [] => .error (.openString 1)
  | closing :: after =>
      let value? := if digits.isEmpty then some 0 else Text.readDigits? 16 digits
      numeral value? (mark :: quote :: digits ++ [closing]) after

private theorem numeral_eq_ok_iff {value? : Option UInt16} {taken rest : List Char}
    {lexeme : Lexeme} :
    numeral value? taken rest = .ok lexeme ↔
      ∃ value, value? = some value ∧ lexeme = { parts := [.number value], taken, rest } := by
  cases value? with
  | none => simp [numeral]
  | some value => simp [numeral, eq_comm]

private theorem numeral_eq_error_iff {value? : Option UInt16} {taken rest : List Char}
    {error : ExpressionError} :
    numeral value? taken rest = .error error ↔
      value? = none ∧ error = .malformedNumber (.ofList taken) 1 := by
  cases value? with
  | none => simp [numeral, eq_comm]
  | some value => simp [numeral]

section

variable {radix : Nat} {first mark quote : Char} {rest : List Char} {value : UInt16}
variable {error : ExpressionError}

theorem scanNumber_of_value
    (spelled : numberValue? radix (first :: rest.takeWhile Char.isAlphanum) = some value) :
    scanNumber radix first rest =
      .ok { parts := [.number value]
            taken := first :: rest.takeWhile Char.isAlphanum
            rest := rest.dropWhile Char.isAlphanum } := by
  rw [scanNumber, spelled, numeral]

theorem scanNumber_eq_ok_iff {lexeme : Lexeme} :
    scanNumber radix first rest = .ok lexeme ↔
      ∃ value, numberValue? radix (first :: rest.takeWhile Char.isAlphanum) = some value ∧
        lexeme =
          { parts := [.number value]
            taken := first :: rest.takeWhile Char.isAlphanum
            rest := rest.dropWhile Char.isAlphanum } :=
  numeral_eq_ok_iff

theorem scanNumber_eq_error_iff :
    scanNumber radix first rest = .error error ↔
      numberValue? radix (first :: rest.takeWhile Char.isAlphanum) = none ∧
        error = .malformedNumber (.ofList (first :: rest.takeWhile Char.isAlphanum)) 1 :=
  numeral_eq_error_iff

theorem scanMarked_of_value
    (spelled : Text.readDigits? radix (rest.takeWhile Char.isAlphanum) = some value) :
    scanMarked radix mark rest =
      .ok { parts := [.number value]
            taken := mark :: rest.takeWhile Char.isAlphanum
            rest := rest.dropWhile Char.isAlphanum } := by
  rw [scanMarked, spelled, numeral]

theorem scanMarked_eq_ok_iff {lexeme : Lexeme} :
    scanMarked radix mark rest = .ok lexeme ↔
      ∃ value, Text.readDigits? radix (rest.takeWhile Char.isAlphanum) = some value ∧
        lexeme =
          { parts := [.number value]
            taken := mark :: rest.takeWhile Char.isAlphanum
            rest := rest.dropWhile Char.isAlphanum } :=
  numeral_eq_ok_iff

theorem scanMarked_eq_error_iff :
    scanMarked radix mark rest = .error error ↔
      Text.readDigits? radix (rest.takeWhile Char.isAlphanum) = none ∧
        error = .malformedNumber (.ofList (mark :: rest.takeWhile Char.isAlphanum)) 1 :=
  numeral_eq_error_iff

private theorem scanHexString_append {digits after : List Char} (noQuote : quote ∉ digits) :
    scanHexString mark quote (digits ++ quote :: after) =
      numeral (if digits.isEmpty then some 0 else Text.readDigits? 16 digits)
        (mark :: quote :: digits ++ [quote]) after := by
  have differ : ∀ digit ∈ digits, decide (digit ≠ quote) = true := by
    intro digit member
    exact decide_eq_true fun equal => noQuote (equal ▸ member)
  have taken : (digits ++ quote :: after).takeWhile (· ≠ quote) = digits := by
    rw [List.takeWhile_append_of_pos differ, List.takeWhile_cons_of_neg (by simp),
      List.append_nil]
  have dropped : (digits ++ quote :: after).dropWhile (· ≠ quote) = quote :: after := by
    rw [List.dropWhile_append_of_pos differ, List.dropWhile_cons_of_neg (by simp)]
  simp only [scanHexString, taken, dropped]

theorem scanHexString_of_value {digits after : List Char} (noQuote : quote ∉ digits)
    (spelled : Text.readDigits? 16 digits = some value) :
    scanHexString mark quote (digits ++ quote :: after) =
      .ok { parts := [.number value]
            taken := mark :: quote :: digits ++ [quote]
            rest := after } := by
  have notEmpty : digits.isEmpty = false := by
    cases digits with
    | nil => simp [Text.readDigits?] at spelled
    | cons => rfl
  simp only [scanHexString_append noQuote, notEmpty, spelled, numeral, Bool.false_eq_true,
    if_false]

/-- The digits reach to the first quote. -/
theorem scanHexString_eq_ok_iff {lexeme : Lexeme} :
    scanHexString mark quote rest = .ok lexeme ↔
      ∃ digits after value, rest = digits ++ quote :: after ∧ quote ∉ digits ∧
        (if digits.isEmpty then some 0 else Text.readDigits? 16 digits) = some value ∧
        lexeme =
          { parts := [.number value]
            taken := mark :: quote :: digits ++ [quote]
            rest := after } := by
  constructor
  · intro scanned
    have closed : quote ∈ rest := by
      apply Decidable.byContradiction
      intro absent
      have differ : ∀ character ∈ rest, decide (character ≠ quote) = true := by
        intro character member
        exact decide_eq_true fun equal => absent (equal ▸ member)
      have unclosed : rest.dropWhile (· ≠ quote) = [] := by
        rw [← List.append_nil rest, List.dropWhile_append_of_pos differ]
        rfl
      simp only [scanHexString, unclosed] at scanned
      contradiction
    obtain ⟨digits, after, rfl, noQuote⟩ := List.eq_append_cons_of_mem closed
    rw [scanHexString_append noQuote] at scanned
    obtain ⟨value, spelled, rfl⟩ := numeral_eq_ok_iff.1 scanned
    exact ⟨digits, after, value, rfl, noQuote, spelled, rfl⟩
  · rintro ⟨digits, after, value, rfl, noQuote, spelled, rfl⟩
    rw [scanHexString_append noQuote]
    exact numeral_eq_ok_iff.2 ⟨value, spelled, rfl⟩

/-- Either the closing quote is missing, or there are no digits before it. -/
theorem scanHexString_eq_error_cases (faulty : scanHexString mark quote rest = .error error) :
    (quote ∉ rest ∧ error = .openString 1) ∨
      ∃ digits after, rest = digits ++ quote :: after ∧
        error = .malformedNumber (.ofList (mark :: quote :: digits ++ [quote])) 1 := by
  unfold scanHexString at faulty
  split at faulty
  · next noQuote =>
      cases faulty
      refine .inl ⟨?_, rfl⟩
      have whole : rest.takeWhile (· ≠ quote) = rest := by
        rw [← List.append_nil (rest.takeWhile _), ← noQuote, List.takeWhile_append_dropWhile]
      have differ := List.all_takeWhile (p := (· ≠ quote)) (l := rest)
      rw [whole, List.all_eq_true] at differ
      intro member
      simpa using differ quote member
  · next closing after found =>
      obtain ⟨-, rfl⟩ := numeral_eq_error_iff.1 faulty
      have closes : closing = quote := by
        have head := List.head?_dropWhile_not (· ≠ quote) rest
        rw [found] at head
        simpa using head
      subst closes
      refine .inr ⟨_, after, ?_, rfl⟩
      rw [← found, List.takeWhile_append_dropWhile]

end

private theorem covers_numeral {value? : Option UInt16} {first : Char}
    {more rest : List Char} {lexeme : Lexeme}
    (scanned : numeral value? (first :: more) rest = .ok lexeme) :
    lexeme.Covers first (more ++ rest) := by
  unfold numeral at scanned
  split at scanned
  · cases scanned
    exact ⟨more, rfl, rfl⟩
  · contradiction

theorem covers_scanNumber {radix : Nat} {first : Char} {rest : List Char}
    {lexeme : Lexeme} (scanned : scanNumber radix first rest = .ok lexeme) :
    lexeme.Covers first rest := by
  have covers := covers_numeral scanned
  rwa [List.takeWhile_append_dropWhile] at covers

theorem covers_scanMarked {radix : Nat} {mark : Char} {rest : List Char}
    {lexeme : Lexeme} (scanned : scanMarked radix mark rest = .ok lexeme) :
    lexeme.Covers mark rest := by
  have covers := covers_numeral scanned
  rwa [List.takeWhile_append_dropWhile] at covers

theorem covers_scanHexString {mark quote : Char} {rest : List Char}
    {lexeme : Lexeme} (scanned : scanHexString mark quote rest = .ok lexeme) :
    lexeme.Covers mark (quote :: rest) := by
  unfold scanHexString at scanned
  split at scanned
  · contradiction
  · next closing after found =>
      have covers := covers_numeral scanned
      rw [← List.takeWhile_append_dropWhile (p := (· ≠ quote)) (l := rest), found]
      simpa using covers

private theorem stands_numeral {value? : Option UInt16} {taken rest : List Char}
    {lexeme : Lexeme} (scanned : numeral value? taken rest = .ok lexeme)
    (reading : Reading) : lexeme.Stands reading := by
  unfold numeral at scanned
  split at scanned
  · cases scanned
    exact .part (by simp [Part.number]) (by simp [Part.number, Part.isBytes])
  · contradiction

theorem stands_scanNumber {radix : Nat} {first : Char} {rest : List Char}
    {lexeme : Lexeme} (scanned : scanNumber radix first rest = .ok lexeme)
    (reading : Reading) : lexeme.Stands reading :=
  stands_numeral scanned reading

theorem stands_scanMarked {radix : Nat} {mark : Char} {rest : List Char}
    {lexeme : Lexeme} (scanned : scanMarked radix mark rest = .ok lexeme)
    (reading : Reading) : lexeme.Stands reading :=
  stands_numeral scanned reading

theorem stands_scanHexString {mark quote : Char} {rest : List Char}
    {lexeme : Lexeme} (scanned : scanHexString mark quote rest = .ok lexeme)
    (reading : Reading) : lexeme.Stands reading := by
  unfold scanHexString at scanned
  split at scanned
  · contradiction
  · exact stands_numeral scanned reading

private theorem category_of_numeral {value? : Option UInt16}
    {taken rest : List Char} {error : ExpressionError}
    (faulty : numeral value? taken rest = .error error) :
    error.category = .lexical := by
  unfold numeral at faulty
  split at faulty
  · contradiction
  · cases faulty
    rfl

theorem category_of_scanNumber {radix : Nat} {first : Char} {rest : List Char}
    {error : ExpressionError} (faulty : scanNumber radix first rest = .error error) :
    error.category = .lexical :=
  category_of_numeral faulty

theorem category_of_scanMarked {radix : Nat} {mark : Char} {rest : List Char}
    {error : ExpressionError} (faulty : scanMarked radix mark rest = .error error) :
    error.category = .lexical :=
  category_of_numeral faulty

theorem category_of_scanHexString {mark quote : Char} {rest : List Char}
    {error : ExpressionError} (faulty : scanHexString mark quote rest = .error error) :
    error.category = .lexical := by
  unfold scanHexString at faulty
  split at faulty
  · cases faulty
    rfl
  · exact category_of_numeral faulty

end RelocExpr.Lexeme
