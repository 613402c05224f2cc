import RelocExpr.Proofs.Reading

/-!
# Letter case

Outside string literals nothing that is read depends on the case of ASCII letters.  To read
a text in upper case gives the parts of the text with the names of their symbols in upper
case, and the error of the text with the characters that it quotes in upper case.
-/

namespace RelocExpr

/-! ## Characters -/

namespace Text

variable {character : Char}

/-- The only characters that are changed. -/
def lowerLetters : List Char := "abcdefghijklmnopqrstuvwxyz".toList

theorem toUpper_eq_self_or_mem (character : Char) :
    character.toUpper = character ∨ character ∈ lowerLetters := by
  unfold Char.toUpper
  split
  · next isLower =>
      right
      have low : 97 ≤ character.toNat := by
        simpa [UInt32.le_iff_toNat_le] using isLower.1
      have high : character.toNat ≤ 122 := by
        simpa [UInt32.le_iff_toNat_le] using isLower.2
      have listed : ∀ code < 123, 97 ≤ code → Char.ofNat code ∈ lowerLetters := by decide
      have member := listed character.toNat (by omega) low
      rwa [Char.ofNat_toNat] at member
  · exact .inl rfl

/-- A function that gives the same for a letter in both cases does not depend on letter
case. -/
theorem apply_toUpper {α : Type} [DecidableEq α] (f : Char → α)
    (same : lowerLetters.all (fun letter => f letter.toUpper = f letter) = true)
    (character : Char) : f character.toUpper = f character := by
  rcases toUpper_eq_self_or_mem character with unchanged | letter
  · rw [unchanged]
  · exact of_decide_eq_true (List.all_eq_true.1 same character letter)

@[simp] theorem isBlank_toUpper (character : Char) :
    isBlank character.toUpper = isBlank character :=
  apply_toUpper isBlank (by decide) character

@[simp] theorem utf8Size_toUpper (character : Char) :
    character.toUpper.utf8Size = character.utf8Size :=
  apply_toUpper Char.utf8Size (by decide) character

@[simp] theorem toLower_toUpper (character : Char) :
    character.toUpper.toLower = character.toLower :=
  apply_toUpper Char.toLower (by decide) character

@[simp] theorem isDigit_toUpper (character : Char) :
    character.toUpper.isDigit = character.isDigit :=
  apply_toUpper Char.isDigit (by decide) character

@[simp] theorem isAlphanum_toUpper (character : Char) :
    character.toUpper.isAlphanum = character.isAlphanum :=
  apply_toUpper Char.isAlphanum (by decide) character

@[simp] theorem digitValue?_toUpper (base : Nat) (character : Char) :
    digitValue? base character.toUpper = digitValue? base character := by
  have value := apply_toUpper
    (fun character =>
      if character.isDigit then some (character.toNat - '0'.toNat)
      else if character.isAlpha then some (character.toLower.toNat - 'a'.toNat + 10)
      else none)
    (by decide) character
  exact congrArg (Option.filter fun digit => decide (digit < base)) value

/-- Only letters are changed, and into letters. -/
theorem toUpper_eq_iff {other : Char} (noLetter : other.isAlpha = false) :
    character.toUpper = other ↔ character = other := by
  have noLower : other ∉ lowerLetters := by
    have letters : lowerLetters.all Char.isAlpha = true := by decide
    intro member
    rw [List.all_eq_true.1 letters other member] at noLetter
    contradiction
  have noUpper : ∀ letter ∈ lowerLetters, letter.toUpper ≠ other := by
    have letters : lowerLetters.all (·.toUpper.isAlpha) = true := by decide
    rintro letter member rfl
    rw [List.all_eq_true.1 letters letter member] at noLetter
    contradiction
  rcases toUpper_eq_self_or_mem character with unchanged | letter
  · rw [unchanged]
  · refine iff_of_false (noUpper character letter) ?_
    rintro rfl
    exact noLower letter

/-! ## Texts -/

variable (text : List Char)

@[simp] theorem byteWidth_map_toUpper : byteWidth (text.map Char.toUpper) = byteWidth text := by
  induction text with
  | nil => rfl
  | cons first rest ih => simp [ih]

variable {member : Char → Bool} (blind : ∀ character, member character.toUpper = member character)

include blind

theorem takeWhile_map_toUpper :
    (text.map Char.toUpper).takeWhile member = (text.takeWhile member).map Char.toUpper := by
  rw [List.takeWhile_map, show member ∘ Char.toUpper = member from funext blind]

theorem dropWhile_map_toUpper :
    (text.map Char.toUpper).dropWhile member = (text.dropWhile member).map Char.toUpper := by
  rw [List.dropWhile_map, show member ∘ Char.toUpper = member from funext blind]

theorem trim_map_toUpper :
    trim member (text.map Char.toUpper) = (trim member text).map Char.toUpper := by
  rw [trim, trim, dropWhile_map_toUpper text blind, ← List.map_reverse,
    dropWhile_map_toUpper _ blind, List.map_reverse]

omit blind

theorem upper_ofList : upper (.ofList text) = .ofList (text.map Char.toUpper) := by
  rw [upper, String.toList_ofList]

theorem appendDigits_map_toUpper (radix : Nat) (value : UInt16) :
    appendDigits radix value (text.map Char.toUpper) = appendDigits radix value text := by
  induction text generalizing value with
  | nil => rfl
  | cons digit rest ih =>
      rw [List.map_cons, appendDigits, appendDigits, digitValue?_toUpper]
      cases digitValue? radix digit with
      | none => rfl
      | some amount => exact ih _

@[simp] theorem readDigits?_map_toUpper (radix : Nat) :
    readDigits? radix (text.map Char.toUpper) = readDigits? radix text := by
  rw [readDigits?, readDigits?, List.isEmpty_map, appendDigits_map_toUpper]

end Text

/-! ## What is read -/

/-- The symbol with its name in upper case. -/
def SymbolRef.upper (ref : SymbolRef) : SymbolRef :=
  { ref with name := Text.upper ref.name }

/-- The part with the name of its symbol in upper case. -/
def Part.upper : Part → Part
  | .symbol ref => .symbol ref.upper
  | part => part

/-- The error with all that it quotes from its text in upper case. -/
def ExpressionError.upper : ExpressionError → ExpressionError
  | .strayCharacter character column => .strayCharacter character.toUpper column
  | .malformedNumber literal column => .malformedNumber (Text.upper literal) column
  | .misplaced token previous position =>
      .misplaced (Text.upper token) (Text.upper previous) position
  | .loneToken token => .loneToken (Text.upper token)
  | error => error

/-- The lexeme of the text in upper case. -/
def Lexeme.upper (lexeme : Lexeme) : Lexeme where
  parts := lexeme.parts.map Part.upper
  taken := lexeme.taken.map Char.toUpper
  rest := lexeme.rest.map Char.toUpper

@[simp] theorem Part.endsOperand_upper (part : Part) :
    part.upper.endsOperand = part.endsOperand := by
  cases part <;> rfl

theorem ExpressionError.upper_shift (error : ExpressionError) (bytes : Nat) :
    (error.shift bytes).upper = error.upper.shift bytes := by
  cases error <;> rfl

namespace Lexeme

variable {reading : Reading} {afterOperand root : Bool} {radix : Nat}
variable {first : Char} {rest text : List Char}

/-! ## Numbers -/

theorem splitSuffix_map_toUpper (radix : Nat) (literal : List Char) :
    splitSuffix radix (literal.map Char.toUpper) =
      ((splitSuffix radix literal).1.map Char.toUpper, (splitSuffix radix literal).2) := by
  unfold splitSuffix
  rw [List.getLast?_map]
  cases literal.getLast? with
  | none => rfl
  | some last =>
      simp only [Option.map_some, Text.toLower_toUpper, Text.digitValue?_toUpper]
      split
      all_goals try split
      all_goals simp

theorem numberValue?_map_toUpper (radix : Nat) (literal : List Char) :
    numberValue? radix (literal.map Char.toUpper) = numberValue? radix literal := by
  rw [numberValue?, numberValue?, splitSuffix_map_toUpper]
  exact Text.readDigits?_map_toUpper _ _

theorem scanNumber_toUpper (radix : Nat) (first : Char) (rest : List Char) :
    scanNumber radix first.toUpper (rest.map Char.toUpper) =
      ((scanNumber radix first rest).mapError ExpressionError.upper).map upper := by
  have taken := Text.takeWhile_map_toUpper rest Text.isAlphanum_toUpper
  have left := Text.dropWhile_map_toUpper rest Text.isAlphanum_toUpper
  have value := numberValue?_map_toUpper radix (first :: rest.takeWhile Char.isAlphanum)
  rw [List.map_cons, ← taken] at value
  cases found : numberValue? radix (first :: rest.takeWhile Char.isAlphanum) with
  | some number =>
      rw [scanNumber_of_value found, scanNumber_of_value (value.trans found), taken, left]
      rfl
  | none =>
      rw [scanNumber_eq_error_iff.2 ⟨found, rfl⟩,
        scanNumber_eq_error_iff.2 ⟨value.trans found, rfl⟩, taken, ← List.map_cons,
        ← Text.upper_ofList]
      rfl

theorem scanMarked_toUpper (radix : Nat) (mark : Char) (rest : List Char) :
    scanMarked radix mark.toUpper (rest.map Char.toUpper) =
      ((scanMarked radix mark rest).mapError ExpressionError.upper).map upper := by
  have taken := Text.takeWhile_map_toUpper rest Text.isAlphanum_toUpper
  have left := Text.dropWhile_map_toUpper rest Text.isAlphanum_toUpper
  have value := Text.readDigits?_map_toUpper (rest.takeWhile Char.isAlphanum) radix
  rw [← taken] at value
  cases found : Text.readDigits? radix (rest.takeWhile Char.isAlphanum) with
  | some number =>
      rw [scanMarked_of_value found, scanMarked_of_value (value.trans found), taken, left]
      rfl
  | none =>
      rw [scanMarked_eq_error_iff.2 ⟨found, rfl⟩,
        scanMarked_eq_error_iff.2 ⟨value.trans found, rfl⟩, taken, ← List.map_cons,
        ← Text.upper_ofList]
      rfl

/-! ## Words -/

@[simp] theorem isWordStart_toUpper (character : Char) :
    isWordStart character.toUpper = isWordStart character :=
  Text.apply_toUpper isWordStart (by decide) character

@[simp] theorem isWordCharacter_toUpper (character : Char) :
    isWordCharacter character.toUpper = isWordCharacter character :=
  Text.apply_toUpper isWordCharacter (by decide) character

theorem take_two_map_toUpper_eq_marks_iff :
    (text.map Char.toUpper).take 2 = ['#', '#'] ↔ text.take 2 = ['#', '#'] := by
  have mark (character : Char) : character.toUpper = '#' ↔ character = '#' :=
    Text.toUpper_eq_iff (by decide)
  match text with
  | [] => rfl
  | [_] => simp
  | _ :: _ :: _ => simp [mark]

theorem upper_eq_dollar_iff (name : String) : Text.upper name = "$" ↔ name = "$" := by
  have dollar (character : Char) : character.toUpper = '$' ↔ character = '$' :=
    Text.toUpper_eq_iff (by decide)
  rw [← String.toList_inj, ← String.toList_inj, Text.toList_upper]
  change name.toList.map Char.toUpper = ['$'] ↔ name.toList = ['$']
  simp [List.map_eq_singleton_iff, dollar]

theorem unmarkedParts_toUpper (name : String) (after : List Char) :
    unmarkedParts reading (Text.upper name) (after.map Char.toUpper) =
      ((unmarkedParts reading name after).1.map Part.upper,
        (unmarkedParts reading name after).2) := by
  have blanks : (after.map Char.toUpper).all Text.isBlank = after.all Text.isBlank := by
    simp [List.all_map, Function.comp_def]
  have operator : Operator.ofKeyword? (Text.upper name) = Operator.ofKeyword? name := by
    rw [Operator.ofKeyword?, Operator.ofKeyword?, Text.upper_upper]
  rw [unmarkedParts, unmarkedParts]
  simp only [upper_eq_dollar_iff, blanks, operator]
  split
  · rfl
  · split
    · rfl
    · rfl
    · rfl

theorem word_toUpper (root : Bool) (first : Char) (rest : List Char) :
    word reading root first.toUpper (rest.map Char.toUpper) =
      (word reading root first rest).upper := by
  have taken := Text.takeWhile_map_toUpper rest isWordCharacter_toUpper
  have left := Text.dropWhile_map_toUpper rest isWordCharacter_toUpper
  unfold word
  dsimp only
  rw [taken, left]
  generalize rest.takeWhile isWordCharacter = more
  generalize rest.dropWhile isWordCharacter = after
  rw [← List.map_cons, ← Text.upper_ofList, unmarkedParts_toUpper]
  simp only [take_two_map_toUpper_eq_marks_iff]
  have marks : (if root then [':'] else []).map Char.toUpper = if root then [':'] else [] := by
    cases root <;> rfl
  split
  · simp [upper, Part.upper, SymbolRef.upper, marks]
  · split
    · simp [upper, Part.upper, SymbolRef.upper]
    · split
      · simp [upper]
      · simp [upper]

theorem scanWord_toUpper (first : Char) (rest : List Char) :
    scanWord reading first.toUpper (rest.map Char.toUpper) =
      ((scanWord reading first rest).mapError ExpressionError.upper).map upper := by
  have colon : first.toUpper = ':' ↔ first = ':' := Text.toUpper_eq_iff (by decide)
  by_cases isColon : first = ':'
  · subst isColon
    cases rest with
    | nil => rfl
    | cons start more =>
        rw [List.map_cons, scanWord, scanWord, if_pos (colon.2 rfl), if_pos rfl,
          isWordStart_toUpper, word_toUpper]
        split
        · rfl
        · rfl
  · rw [scanWord.eq_def, scanWord.eq_def, if_neg isColon, if_neg (mt colon.1 isColon),
      word_toUpper]
    rfl

/-! ## All lexemes -/

/-- No string literal begins in the text. -/
def Unquoted (text : List Char) : Prop :=
  '\'' ∉ text ∧ '"' ∉ text

theorem Unquoted.sublist (unquoted : Unquoted text) (sublist : rest.Sublist text) :
    Unquoted rest :=
  ⟨fun member => unquoted.1 (sublist.subset member),
    fun member => unquoted.2 (sublist.subset member)⟩

@[simp] theorem punctuation?_toUpper (afterOperand : Bool) (character : Char) :
    punctuation? afterOperand character.toUpper = punctuation? afterOperand character :=
  Text.apply_toUpper (punctuation? afterOperand) (by cases afterOperand <;> decide) character

/-- A text without quotes has no strings, and no hexadecimal digits between quotes. -/
theorem scan_of_unquoted (unquoted : Unquoted (first :: rest)) :
    scan reading afterOperand first rest =
      if first.isDigit then scanNumber reading.settings.radix.base first rest
      else if first = '#' then scanMarked 16 first rest
      else if first = '%' then scanMarked 2 first rest
      else
        match punctuation? afterOperand first with
        | some part => .ok { parts := [part], taken := [first], rest }
        | none =>
            if first = ':' || isWordStart first then scanWord reading first rest
            else .error (.strayCharacter first 1) := by
  unfold scan
  split
  · rfl
  split
  · rfl
  split
  · rfl
  have noString : ¬ (first = '\'' || first = '"') = true := by
    simp only [Bool.or_eq_true, decide_eq_true_eq]
    rintro (rfl | rfl)
    · exact unquoted.1 List.mem_cons_self
    · exact unquoted.2 List.mem_cons_self
  have noHexString : ¬ (first.toLower = 'x' && rest.head? = some '\'') = true := by
    intro hexString
    simp only [Bool.and_eq_true, decide_eq_true_eq] at hexString
    exact unquoted.1 (List.mem_cons_of_mem _ (List.mem_of_head? hexString.2))
  exact (if_neg noString).trans (if_neg noHexString)

theorem Unquoted.map_toUpper (unquoted : Unquoted text) : Unquoted (text.map Char.toUpper) := by
  have absent {quote : Char} (noLetter : quote.isAlpha = false) (absent : quote ∉ text) :
      quote ∉ text.map Char.toUpper := by
    intro member
    obtain ⟨character, inText, upper⟩ := List.mem_map.1 member
    exact absent ((Text.toUpper_eq_iff noLetter).1 upper ▸ inText)
  exact ⟨absent (by decide) unquoted.1, absent (by decide) unquoted.2⟩

theorem upper_of_punctuation? {character : Char} {part : Part}
    (found : punctuation? afterOperand character = some part) : part.upper = part := by
  unfold punctuation? at found
  split at found <;> cases found <;> rfl

theorem scan_toUpper (reading : Reading) (afterOperand : Bool)
    (unquoted : Unquoted (first :: rest)) :
    scan reading afterOperand first.toUpper (rest.map Char.toUpper) =
      ((scan reading afterOperand first rest).mapError ExpressionError.upper).map upper := by
  have hash : first.toUpper = '#' ↔ first = '#' := Text.toUpper_eq_iff (by decide)
  have percent : first.toUpper = '%' ↔ first = '%' := Text.toUpper_eq_iff (by decide)
  have colon : first.toUpper = ':' ↔ first = ':' := Text.toUpper_eq_iff (by decide)
  rw [scan_of_unquoted unquoted, scan_of_unquoted unquoted.map_toUpper]
  simp only [Text.isDigit_toUpper, hash, percent, colon, isWordStart_toUpper,
    punctuation?_toUpper]
  split
  · exact scanNumber_toUpper _ _ _
  split
  · exact scanMarked_toUpper _ _ _
  split
  · exact scanMarked_toUpper _ _ _
  split
  · next part found =>
      refine congrArg Except.ok ?_
      simp [upper, upper_of_punctuation? found]
  split
  · exact scanWord_toUpper _ _
  · rfl

@[simp] theorem endsOperand_upper (lexeme : Lexeme) :
    lexeme.upper.endsOperand = lexeme.endsOperand := by
  rw [endsOperand, endsOperand, upper, List.getLast?_map]
  cases lexeme.parts.getLast? with
  | none => rfl
  | some part => exact part.endsOperand_upper

end Lexeme

/-! ## Texts -/

variable {reading : Reading} {afterOperand : Bool} {text : List Char}

/-- The parts of a text in upper case are those of the text. -/
theorem readParts_map_toUpper (unquoted : Lexeme.Unquoted text) (afterOperand : Bool) :
    readParts reading afterOperand (text.map Char.toUpper) =
      ((readParts reading afterOperand text).mapError ExpressionError.upper).map
        (List.map Part.upper) := by
  have dropped (text : List Char) := Text.dropWhile_map_toUpper text Text.isBlank_toUpper
  have blank (text : List Char) := Text.takeWhile_map_toUpper text Text.isBlank_toUpper
  fun_induction readParts reading afterOperand text with
  | case1 afterOperand text found =>
      have foundUpper := dropped text
      rw [found] at foundUpper
      exact readParts_of_blank foundUpper
  | case2 afterOperand text first rest found blanks error scanned =>
      have foundUpper := dropped text
      rw [found] at foundUpper
      have unquotedHere := unquoted.sublist (found ▸ List.dropWhile_sublist _)
      have scannedUpper := Lexeme.scan_toUpper reading afterOperand unquotedHere
      rw [scanned] at scannedUpper
      rw [readParts_of_scan_error foundUpper scannedUpper, blank, Text.byteWidth_map_toUpper]
      exact congrArg Except.error (error.upper_shift _).symm
  | case3 afterOperand text first rest found blanks lexeme scanned before ih =>
      have foundUpper := dropped text
      rw [found] at foundUpper
      have unquotedHere := unquoted.sublist (found ▸ List.dropWhile_sublist _)
      have unquotedLater : Lexeme.Unquoted lexeme.rest := by
        rw [← (Lexeme.covers_scan scanned).taken_append_rest] at unquotedHere
        exact unquotedHere.sublist (List.sublist_append_right _ _)
      have scannedUpper := Lexeme.scan_toUpper reading afterOperand unquotedHere
      rw [scanned] at scannedUpper
      rw [readParts_of_scan foundUpper scannedUpper, blank, Text.byteWidth_map_toUpper,
        Lexeme.endsOperand_upper]
      dsimp only [Lexeme.upper]
      rw [ih unquotedLater, Text.byteWidth_map_toUpper]
      cases readParts reading lexeme.endsOperand lexeme.rest with
      | error error => exact congrArg Except.error (error.upper_shift before).symm
      | ok later => exact congrArg Except.ok List.map_append.symm

/-- The expression of the text in upper case. -/
def Expression.upper (expression : Expression) : Expression where
  source := Text.upper expression.source
  parts := expression.parts.map Part.upper
  isByte := expression.isByte
  isPostfix := expression.isPostfix

/-- To read a text in upper case is to read the text, and to put what was read in upper
case. -/
theorem Expression.read_upper {source : String} (unquoted : Lexeme.Unquoted source.toList)
    (reading : Reading) (isByte : Bool) :
    read reading isByte (Text.upper source) =
      ((read reading isByte source).mapError ExpressionError.upper).map upper := by
  have unquotedTrimmed : Lexeme.Unquoted (Text.trim Text.isBlank source.toList) :=
    ⟨fun member => unquoted.1 (mem_of_mem_trim member),
      fun member => unquoted.2 (mem_of_mem_trim member)⟩
  simp only [read]
  rw [Text.toList_upper, Text.trim_map_toUpper _ Text.isBlank_toUpper,
    readParts_map_toUpper unquotedTrimmed]
  cases readParts reading false (Text.trim Text.isBlank source.toList) with
  | error error => rfl
  | ok parts =>
      refine congrArg Except.ok ?_
      simp [upper, Text.upper_ofList]

end RelocExpr
