import RelocExpr.Evaluation
import RelocExpr.Proofs.DataStrings
import RelocExpr.Proofs.Juxtaposition
import RelocExpr.Proofs.LetterCase

/-!
# What `NUL` makes of a text

`NUL` ends the reading of its text and becomes the whole expression.  What stands before it
has to be readable but need not be an expression, and nothing is asked of what follows.
Only whether blanks alone follow decides the value, which depends on no symbol.
-/

namespace RelocExpr

variable {reading : Reading} {afterOperand : Bool} {parts : List Part}
variable {before nul after : List Char}

/-! ## The lexeme -/

namespace Lexeme

variable {first : Char} {more rest : List Char}

/-- Numbers, not words, begin with digits. -/
theorem isDigit_of_isWordStart (starts : isWordStart first = true) : first.isDigit = false := by
  rw [Bool.eq_false_iff]
  intro digit
  rw [isWordStart, Bool.or_eq_true, decide_eq_true_eq] at starts
  rcases starts with alpha | listed
  · unfold Char.isAlpha Char.isUpper Char.isLower at alpha
    unfold Char.isDigit at digit
    simp only [Bool.or_eq_true, Bool.and_eq_true, decide_eq_true_eq, UInt32.le_iff_toNat_le,
      ge_iff_le] at alpha digit
    change (65 ≤ first.val.toNat ∧ first.val.toNat ≤ 90) ∨
      (97 ≤ first.val.toNat ∧ first.val.toNat ≤ 122) at alpha
    change 48 ≤ first.val.toNat ∧ first.val.toNat ≤ 57 at digit
    omega
  · simp only [List.mem_cons, List.not_mem_nil, or_false] at listed
    rcases listed with rfl | rfl | rfl | rfl | rfl <;> contradiction

/-- A word begins here, unless it is an `x` before digits between quotes. -/
theorem scan_of_isWordStart (reading : Reading) (afterOperand : Bool) (rest : List Char)
    (starts : isWordStart first = true)
    (noHexString : first.toLower ≠ 'x' ∨ rest.head? ≠ some '\'') :
    scan reading afterOperand first rest = .ok (word reading false first rest) := by
  have other {character : Char} (noStart : isWordStart character = false) :
      first ≠ character := by
    rintro rfl
    rw [noStart] at starts
    contradiction
  have noDigit : ¬ first.isDigit = true := by
    rw [isDigit_of_isWordStart starts]
    decide
  have noPunctuation : punctuation? afterOperand first = none := by
    unfold punctuation?
    split
    case h_8 => rfl
    all_goals exact absurd rfl (other rfl)
  have noWordMark : first ≠ ':' := other rfl
  have noQuotedDigits : ¬ (first.toLower = 'x' && rest.head? = some '\'') = true := by
    rw [Bool.and_eq_true, decide_eq_true_eq, decide_eq_true_eq]
    rintro ⟨mark, quote⟩
    rcases noHexString with noMark | noQuote
    · exact noMark mark
    · exact noQuote quote
  have noQuote : ¬ (first = '\'' || first = '"') = true := by
    rw [Bool.or_eq_true, decide_eq_true_eq, decide_eq_true_eq, not_or]
    exact ⟨other rfl, other rfl⟩
  have startsWord : (first = ':' || isWordStart first) = true := by
    rw [starts, Bool.or_true]
  rw [scan, if_neg noDigit, if_neg (other rfl), if_neg (other rfl),
    if_neg noQuote, if_neg noQuotedDigits, noPunctuation]
  dsimp only
  rw [if_pos startsWord, scanWord.eq_def, if_neg noWordMark]

/-- The word is `NUL`, in letters of either case. -/
theorem word_of_nul (spelled : Text.upper (.ofList (first :: more)) = "NUL")
    (run : (more ++ rest).takeWhile isWordCharacter = more)
    (unmarked : rest.take 2 ≠ ['#', '#']) :
    word reading false first (more ++ rest) =
      { parts := [.operator (.unary .nul), .address (.truth (rest.all Text.isBlank))]
        taken := first :: more ++ rest
        rest := [] } := by
  have keyword : Operator.ofKeyword? (.ofList (first :: more)) = some (.unary .nul) := by
    rw [Operator.ofKeyword?, spelled]
    decide
  have noDollar : String.ofList (first :: more) ≠ "$" := by
    intro equal
    rw [equal] at spelled
    revert spelled
    decide +kernel
  rw [word]
  dsimp only
  rw [run, dropWhile_of_takeWhile_append run, if_neg unmarked, if_neg Bool.false_ne_true,
    unmarkedParts, if_neg noDollar, keyword]
  rfl

end Lexeme

/-- What holds of the letters of `NUL` holds of them in either case. -/
theorem eq_of_mem_nul (spelled : nul.map Char.toUpper = "NUL".toList) {f : Char → Bool}
    (value : Bool) (blind : ∀ character, f character.toUpper = f character)
    (same : "NUL".toList.all (f · = value) = true) : ∀ character ∈ nul, f character = value := by
  intro character member
  rw [← blind]
  apply of_decide_eq_true (List.all_eq_true.1 same _ _)
  rw [← spelled]
  exact List.mem_map_of_mem member

/-- After `NUL` nothing is left. -/
theorem readParts_nul (spelled : nul.map Char.toUpper = "NUL".toList)
    (ends : ∀ next ∈ after.head?, Lexeme.isWordCharacter next = false)
    (unmarked : after.take 2 ≠ ['#', '#']) :
    readParts reading afterOperand (nul ++ after) =
      .ok [.operator (.unary .nul), .address (.truth (after.all Text.isBlank))] := by
  have starts := eq_of_mem_nul spelled true Lexeme.isWordStart_toUpper (by decide +kernel)
  have inside := eq_of_mem_nul spelled true Lexeme.isWordCharacter_toUpper (by decide +kernel)
  have notBlank := eq_of_mem_nul spelled false Text.isBlank_toUpper (by decide +kernel)
  have noMark := eq_of_mem_nul spelled (f := fun character => decide (character.toLower = 'x'))
    false (by simp) (by decide +kernel)
  have upper : Text.upper (.ofList nul) = "NUL" := by
    rw [Text.upper_ofList, spelled, String.ofList_toList]
  cases nul with
  | nil => exact absurd spelled (by decide +kernel)
  | cons first more =>
      have atEnd := (Option.any_eq_false Lexeme.isWordCharacter _).2 ends
      have run : (more ++ after).takeWhile Lexeme.isWordCharacter = more :=
        Lexeme.takeWhile_append_eq_left_iff.2
          ⟨fun character member => inside character (List.mem_cons_of_mem _ member), atEnd⟩
      have scanned := Lexeme.scan_of_isWordStart reading afterOperand (more ++ after)
        (starts first List.mem_cons_self)
        (.inl (of_decide_eq_false (noMark first List.mem_cons_self)))
      rw [Lexeme.word_of_nul upper run unmarked] at scanned
      rw [List.cons_append, readParts_cons_of_scan (notBlank first List.mem_cons_self) scanned,
        readParts_of_blank rfl]
      rfl

/-! ## `NUL` in a longer text -/

/-- Only a word without marks that spells it is `NUL`. -/
theorem Lexeme.upper_eq_nul_of_word {first : Char} {text : List Char}
    (hasNul : .operator (.unary .nul) ∈ (word reading false first text).parts) :
    (text.dropWhile isWordCharacter).take 2 ≠ ['#', '#'] ∧
      Text.upper (.ofList (first :: text.takeWhile isWordCharacter)) = "NUL" := by
  unfold word at hasNul
  dsimp only at hasNul
  split at hasNul
  · simp at hasNul
  · next unmarked =>
      refine ⟨unmarked, ?_⟩
      rw [if_neg Bool.false_ne_true, apply_ite Lexeme.parts, ite_self] at hasNul
      unfold unmarkedParts at hasNul
      split at hasNul
      · simp at hasNul
      · split at hasNul
        · next keyword =>
            rw [Operator.ofKeyword?] at keyword
            have named := List.find?_some keyword
            exact (of_decide_eq_true named).symm
        · next other keyword =>
            obtain rfl := Part.operator.inj (List.mem_singleton.1 hasNul)
            exact absurd rfl other
        · simp at hasNul

/-- The operator was spelled, and no word went on after it. -/
theorem Lexeme.exists_nul_of_scan {first : Char} {text : List Char} {lexeme : Lexeme}
    (scanned : scan reading afterOperand first text = .ok lexeme)
    (hasNul : .operator (.unary .nul) ∈ lexeme.parts) :
    ∃ more rest, text = more ++ rest ∧ (first :: more).map Char.toUpper = "NUL".toList ∧
      (∀ next ∈ rest.head?, isWordCharacter next = false) ∧ rest.take 2 ≠ ['#', '#'] := by
  obtain ⟨taken, covered, -⟩ := covers_scan scanned
  obtain ⟨parts, _, left⟩ := lexeme
  cases covered
  rcases scan_eq_ok_cases scanned with isWord | ⟨noNul, -⟩
  · rcases scanWord_eq_ok_cases isWord with ⟨start, tail, _, -, -, -, -, isRoot⟩ | ⟨-, isWord⟩
    · obtain ⟨ref, isSymbol⟩ := exists_symbol_of_word_root reading start tail
      rw [isRoot] at isSymbol
      cases isSymbol
      simp at hasNul
    · obtain ⟨unmarked, upper⟩ := upper_eq_nul_of_word (isWord ▸ hasNul)
      refine ⟨text.takeWhile isWordCharacter, text.dropWhile isWordCharacter,
        List.takeWhile_append_dropWhile.symm, ?_, ?_, unmarked⟩
      · rw [← upper, Text.toList_upper, String.toList_ofList]
      · intro next isNext
        have ends := List.head?_dropWhile_not isWordCharacter text
        rw [Option.mem_def.1 isNext] at ends
        exact ends
  · exact absurd hasNul noNul

/-- It stays the operator in front of a text that no word goes on with, and all that
follows is its own. -/
theorem exists_readParts_append_of_nul {text : List Char}
    (read : readParts reading afterOperand text = .ok parts)
    (hasNul : .operator (.unary .nul) ∈ parts) (stops : Lexeme.Stops after) :
    ∃ others, readParts reading afterOperand (text ++ after) = .ok others ∧
      .operator (.unary .nul) ∈ others := by
  fun_induction readParts reading afterOperand text generalizing parts with
  | case1 =>
      cases read
      cases hasNul
  | case2 => contradiction
  | case3 afterOperand text first rest found blanks lexeme scanned bytes =>
      rename_i ih
      obtain ⟨later, readLater, rfl⟩ := Except.map_eq_ok_iff.1 read
      have readRest := Except.mapError_eq_ok_iff.1 readLater
      have whole : text = text.takeWhile Text.isBlank ++ first :: rest := by
        rw [← found, List.takeWhile_append_dropWhile]
      rw [whole, List.append_assoc, readParts_append_of_blank blank_of_mem_takeWhile,
        List.cons_append]
      by_cases here : .operator (.unary .nul) ∈ lexeme.parts
      · obtain ⟨more, left, rfl, spelled, ends, unmarked⟩ :=
          Lexeme.exists_nul_of_scan scanned here
        have same : Lexeme.SameAhead left (left ++ after) :=
          Apart.sameAhead (.inl stops)
        have endsOn := same.word.symm.trans ((Option.any_eq_false _ _).2 ends)
        rw [List.append_assoc, ← List.cons_append, readParts_nul spelled
          ((Option.any_eq_false _ _).1 endsOn) (mt same.mark.2 unmarked)]
        exact ⟨_, rfl, List.mem_cons_self⟩
      · have nulLater := (List.mem_append.1 hasNul).resolve_left here
        obtain ⟨others, readOthers, nulOthers⟩ := ih readRest nulLater
        obtain ⟨more, taken, rfl⟩ := Lexeme.covers_scan scanned
        obtain ⟨front, _, left⟩ := lexeme
        cases taken
        have scannedOn := Lexeme.scan_of_sameAhead scanned here (Apart.sameAhead (.inl stops))
        rw [List.append_assoc, readParts_cons_of_scan (not_blank_of_dropWhile found) scannedOn]
        dsimp only [Lexeme.endsOperand] at readOthers ⊢
        rw [readOthers]
        exact ⟨_, rfl, List.mem_append_right _ nulOthers⟩

/-! ## The expression -/

/-- The only part after `NUL` is its value. -/
theorem orderParts_append_nul (noNul : .operator (.unary .nul) ∉ parts) (address : Address) :
    orderParts (simplifyParts (parts ++ [.operator (.unary .nul), .address address])) =
      .ok [.address address] := by
  rw [simplifyParts_append_nul noNul]
  rfl

/-- A single address is its own value. -/
theorem Expression.evaluate_address {expression : Expression} {address : Address}
    (ordered : expression.isPostfix = true) (single : expression.parts = [.address address])
    (mode : EvaluationMode) (table : SymbolTable) :
    expression.evaluate mode table = (.ok (.resolved address), table) := by
  have noSymbols : expression.symbolRefs = [] := by
    rw [symbolRefs, single]
    rfl
  have running (table : SymbolTable) :
      expression.run mode table = (.ok (.resolved address), table) := by
    simp [run, ordered, single, foldTypes, runParts]
  cases mode with
  | strict =>
      rw [evaluate, noSymbols]
      exact running table
  | bestEffort => exact running table
  | lookahead =>
      rw [evaluate, hasSymbols, noSymbols]
      exact running table

/-- The parts of a text with `NUL`, at the start or after a blank. -/
theorem readParts_append_nul (read : readParts reading false before = .ok parts)
    (noNul : .operator (.unary .nul) ∉ parts)
    (apart : before = [] ∨ ∃ front blank, before = front ++ [blank] ∧ Text.isBlank blank = true)
    (spelled : nul.map Char.toUpper = "NUL".toList)
    (ends : ∀ next ∈ after.head?, Lexeme.isWordCharacter next = false)
    (unmarked : after.take 2 ≠ ['#', '#']) :
    readParts reading false (before ++ (nul ++ after)) =
      .ok (parts ++ [.operator (.unary .nul), .address (.truth (after.all Text.isBlank))]) := by
  rcases apart with rfl | apart
  · rw [readParts_of_blank rfl] at read
    cases read
    exact readParts_nul spelled ends unmarked
  · rw [readParts_append read noNul (.inr apart), readParts_nul spelled ends unmarked]
    rfl

/-- A text in which `NUL` follows what can be read, at the start or after a blank, is a
truth value: whether blanks alone follow. -/
theorem Expression.compile_nul (read : readParts reading false before = .ok parts)
    (noNul : .operator (.unary .nul) ∉ parts)
    (apart : before = [] ∨ ∃ front blank, before = front ++ [blank] ∧ Text.isBlank blank = true)
    (spelled : nul.map Char.toUpper = "NUL".toList)
    (ends : ∀ next ∈ after.head?, Lexeme.isWordCharacter next = false)
    (unmarked : after.take 2 ≠ ['#', '#']) (isByte : Bool) :
    let value : Address := .absolute (if after.all Text.isBlank then 0xFFFF else 0)
    ∃ expression,
      compile reading isByte (.ofList (before ++ nul ++ after)) = .ok expression ∧
        expression.parts = [.address value] ∧
        ∀ mode table, expression.evaluate mode table = (.ok (.resolved value), table) := by
  intro value
  have notEmpty : nul ≠ [] := by
    rintro rfl
    exact absurd spelled (by decide +kernel)
  have notBlank := eq_of_mem_nul spelled false Text.isBlank_toUpper (by decide +kernel)
  obtain ⟨lead, front, back, trail, rfl, rfl, blankLead, blankTrail, trimmed⟩ :=
    Text.exists_trim_append notEmpty notBlank before after
  rw [readParts_append_of_blank blankLead] at read
  have sameBlanks : (back ++ trail).all Text.isBlank = back.all Text.isBlank := by
    rw [List.all_append, List.all_eq_true.2 blankTrail, Bool.and_true]
  have apartFront :
      front = [] ∨ ∃ init blank, front = init ++ [blank] ∧ Text.isBlank blank = true := by
    rcases List.eq_nil_or_concat' front with empty | ⟨init, last, rfl⟩
    · exact .inl empty
    · rcases apart with empty | ⟨others, blank, split, isBlank⟩
      · simp at empty
      · rw [← List.append_assoc] at split
        obtain ⟨-, rfl⟩ := List.append_inj' split rfl |>.imp_right List.singleton_inj.1
        exact .inr ⟨init, last, rfl, isBlank⟩
  have endsBack : ∀ next ∈ back.head?, Lexeme.isWordCharacter next = false := by
    intro next isNext
    exact ends next (by simp [Option.mem_def.1 isNext])
  have unmarkedBack : back.take 2 ≠ ['#', '#'] := by
    intro marked
    have long : 2 ≤ back.length := by
      have length := congrArg List.length marked
      simp only [List.length_take, List.length_cons, List.length_nil] at length
      omega
    exact unmarked ((List.take_append_of_le_length long).trans marked)
  have whole := readParts_append_nul (Except.mapError_eq_ok_iff.1 read) noNul apartFront spelled
    endsBack unmarkedBack
  rw [← List.append_assoc, ← trimmed, ← sameBlanks] at whole
  have compiled : compile reading isByte
      (.ofList (lead ++ front ++ nul ++ (back ++ trail))) = _ :=
    compile_of_readParts (by rw [String.toList_ofList]; exact whole) isByte
  rw [orderParts_append_nul noNul] at compiled
  exact ⟨_, compiled, rfl, evaluate_address rfl rfl⟩

/-- A long string and an open parenthesis before `NUL`, and an open string after it, leave
no trace. -/
theorem compile_nul_of_open_ends :
    let reading : Reading := { data := true }
    let before := "(FOO## 'ABC' ".toList
    let nul := "nUl".toList
    let after := " ) \"é".toList
    let parts : List Part :=
      [.opening, .symbol { name := "FOO", external := true, root := false },
        .bytes [0x41, 0x42, 0x43] "'ABC'"]
    readParts reading false before = .ok parts ∧ .operator (.unary .nul) ∉ parts ∧
      (∃ front blank, before = front ++ [blank] ∧ Text.isBlank blank = true) ∧
      nul.map Char.toUpper = "NUL".toList ∧
      (∀ next ∈ after.head?, Lexeme.isWordCharacter next = false) ∧
      after.take 2 ≠ ['#', '#'] ∧
      ∃ expression,
        Expression.compile reading false (.ofList (before ++ nul ++ after)) = .ok expression ∧
          expression.parts = [.address (.absolute 0)] ∧
          ∀ mode table,
            expression.evaluate mode table = (.ok (.resolved (.absolute 0)), table) := by
  intro reading before nul after parts
  have read : readParts reading false before = .ok parts := by decide +kernel
  have noNul : .operator (.unary .nul) ∉ parts := by decide
  have apart : ∃ front blank, before = front ++ [blank] ∧ Text.isBlank blank = true :=
    ⟨"(FOO## 'ABC'".toList, ' ', by decide +kernel, rfl⟩
  have spelled : nul.map Char.toUpper = "NUL".toList := by decide +kernel
  have ends : ∀ next ∈ after.head?, Lexeme.isWordCharacter next = false := by
    rintro next ⟨⟩
    decide
  have unmarked : after.take 2 ≠ ['#', '#'] := by decide +kernel
  have notBlank : after.all Text.isBlank = false := by decide +kernel
  have value := Expression.compile_nul read noNul (.inr apart) spelled ends unmarked false
  rw [notBlank] at value
  exact ⟨read, noNul, apart, spelled, ends, unmarked, value⟩

end RelocExpr
