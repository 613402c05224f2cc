import RelocExpr.Lexeme.Basic

/-!
# Words

A word is an operator, a symbol, or `$` for the current location.  A colon before
it or two number signs after it make it a symbol whatever it spells.  After `NUL`
nothing else is read: it is true exactly when only blanks follow.
-/

namespace RelocExpr.Lexeme

/-- A word may begin with the character. -/
def isWordStart (character : Char) : Bool :=
  character.isAlpha || character ∈ ['?', '_', '@', '.', '$']

/-- A word may go on with the character. -/
def isWordCharacter (character : Char) : Bool :=
  isWordStart character || character.isDigit

/-- The parts of a word without marks, and whether it is `NUL`, given the text
after it. -/
def unmarkedParts (reading : Reading) (name : String) (after : List Char) :
    List Part × Bool :=
  if name = "$" then ([.address reading.location], false)
  else
    match Operator.ofKeyword? name with
    | some (.unary .nul) =>
        ([.operator (.unary .nul), .address (.truth (after.all Text.isBlank))],
          true)
    | some operator => ([.operator operator], false)
    | none => ([.symbol { name, external := false, root := false }], false)

/-- A word of which the first character is known, after a colon or not. -/
def word (reading : Reading) (root : Bool) (first : Char)
    (rest : List Char) : Lexeme :=
  let name := first :: rest.takeWhile isWordCharacter
  let after := rest.dropWhile isWordCharacter
  let marks := if root then [':'] else []
  if after.take 2 = ['#', '#'] then
    { parts := [.symbol { name := .ofList name, external := true, root }]
      taken := marks ++ name ++ after.take 2
      rest := after.drop 2 }
  else if root then
    { parts := [.symbol { name := .ofList name, external := false, root }]
      taken := marks ++ name
      rest := after }
  else
    let (parts, endsText) := unmarkedParts reading (.ofList name) after
    if endsText then { parts, taken := name ++ after, rest := [] }
    else { parts, taken := name, rest := after }

/-- A word, which begins with a colon or with a character of a name. -/
def scanWord (reading : Reading) (first : Char) (rest : List Char) :
    Except ExpressionError Lexeme :=
  if first = ':' then
    match rest with
    | start :: more =>
        if isWordStart start then .ok (word reading true start more)
        else .error (.strayCharacter first 1)
    | [] => .error (.strayCharacter first 1)
  else .ok (word reading false first rest)

private theorem word_unmarked_covers (reading : Reading) (first : Char)
    (rest : List Char) : (word reading false first rest).Covers first rest := by
  unfold word
  dsimp only
  split
  · exact ⟨rest.takeWhile isWordCharacter ++ (rest.dropWhile isWordCharacter).take 2,
      rfl, by simp⟩
  · split
    · contradiction
    · split
      · exact ⟨rest, by simp, by simp⟩
      · exact ⟨rest.takeWhile isWordCharacter, rfl, by simp⟩

private theorem word_root_covers (reading : Reading) (first : Char)
    (rest : List Char) :
    (word reading true first rest).Covers ':' (first :: rest) := by
  unfold word
  dsimp only
  split
  · exact ⟨first :: rest.takeWhile isWordCharacter ++
      (rest.dropWhile isWordCharacter).take 2, rfl, by simp⟩
  · exact ⟨first :: rest.takeWhile isWordCharacter, rfl, by simp⟩

theorem covers_scanWord {reading : Reading} {first : Char} {rest : List Char}
    {lexeme : Lexeme} (scanned : scanWord reading first rest = .ok lexeme) :
    lexeme.Covers first rest := by
  unfold scanWord at scanned
  split at scanned
  · next colon =>
      subst colon
      split at scanned
      · split at scanned
        · cases scanned
          exact word_root_covers ..
        · contradiction
      · contradiction
  · cases scanned
    exact word_unmarked_covers ..

private theorem stands_word (reading : Reading) (root : Bool) (first : Char)
    (rest : List Char) : (word reading root first rest).Stands reading := by
  unfold word
  dsimp only
  split
  · exact .part (by simp) (by simp [Part.isBytes])
  split
  · exact .part (by simp) (by simp [Part.isBytes])
  unfold unmarkedParts
  split
  · exact .part (by simp) (by simp [Part.isBytes])
  · split
    · exact .nul _ _
    · next operator other found =>
        exact .part (by simpa using other) (by simp [Part.isBytes])
    · exact .part (by simp) (by simp [Part.isBytes])

theorem stands_scanWord {reading : Reading} {first : Char} {rest : List Char}
    {lexeme : Lexeme} (scanned : scanWord reading first rest = .ok lexeme) :
    lexeme.Stands reading := by
  unfold scanWord at scanned
  split at scanned
  · split at scanned
    · split at scanned
      · cases scanned
        exact stands_word ..
      · contradiction
    · contradiction
  · cases scanned
    exact stands_word ..

theorem category_of_scanWord {reading : Reading} {first : Char}
    {rest : List Char} {error : ExpressionError}
    (faulty : scanWord reading first rest = .error error) :
    error.category = .lexical := by
  unfold scanWord at faulty
  split at faulty
  · split at faulty
    · split at faulty
      · contradiction
      · cases faulty
        rfl
    · cases faulty
      rfl
  · contradiction

end RelocExpr.Lexeme
