import RelocExpr.Proofs.LexemeEnds

/-!
# Texts one after the other

A text that is read to its end, and has no `NUL`, is read in the same way in front of
another text, if no lexeme goes on across the place where they meet.  All that the other
text learns is whether a sign at its front is binary, which only the last part before it
decides.  Blanks between the texts keep every lexeme from going on.
-/

namespace RelocExpr

variable {reading : Reading} {afterOperand : Bool} {parts : List Part}
variable {before after blanks text rest : List Char} {first : Char}

/-! ## Where two texts meet -/

/-- No lexeme other than `NUL` goes on from the first text into the second. -/
def Apart (before after : List Char) : Prop :=
  Lexeme.Stops after ∨ ∃ front blank, before = front ++ [blank] ∧ Text.isBlank blank = true

theorem Apart.sameAhead (apart : Apart before after) :
    Lexeme.SameAhead before (before ++ after) := by
  rcases apart with stops | ⟨front, blank, rfl, isBlank⟩
  · have same := Lexeme.SameAhead.append before Lexeme.stops_nil stops
    rwa [List.append_nil] at same
  · rw [List.append_assoc]
    exact .append front (Lexeme.stops_blank isBlank _) (Lexeme.stops_blank isBlank _)

/-- What a lexeme leaves of the first text stays apart, since a lexeme does not end with a
blank. -/
theorem Apart.of_scan {lexeme : Lexeme} (apart : Apart before after)
    (found : before.dropWhile Text.isBlank = first :: rest)
    (scanned : Lexeme.scan reading afterOperand first rest = .ok lexeme)
    (noNul : .operator (.unary .nul) ∉ lexeme.parts) : Apart lexeme.rest after := by
  rcases apart with stops | ⟨front, blank, equal, isBlank⟩
  · exact .inl stops
  · right
    have covers := Lexeme.covers_scan scanned
    obtain ⟨more, taken, rfl⟩ := covers
    have isLast : before.getLast? = some blank := by rw [equal, List.getLast?_concat]
    rw [← List.takeWhile_append_dropWhile (p := Text.isBlank) (l := before), found,
      ← List.cons_append, ← taken, List.getLast?_append, List.getLast?_append] at isLast
    rcases List.eq_nil_or_concat' lexeme.rest with empty | ⟨front, last, split⟩
    · rw [empty, taken] at isLast
      obtain ⟨parts, _, rest⟩ := lexeme
      cases taken
      have last : (first :: more).getLast? = some blank := by simpa using isLast
      have kept := Lexeme.isBlank_eq_false_of_mem_getLast? (not_blank_of_dropWhile found) scanned
        noNul last
      rw [kept] at isBlank
      contradiction
    · rw [split, List.getLast?_concat] at isLast
      cases isLast
      exact ⟨front, blank, split, isBlank⟩

/-! ## What the second text learns -/

/-- A sign is binary after these parts, given whether it would be without them. -/
def endsAfter (afterOperand : Bool) (parts : List Part) : Bool :=
  (parts.getLast?.map Part.endsOperand).getD afterOperand

@[simp] theorem endsAfter_nil : endsAfter afterOperand [] = afterOperand := rfl

theorem endsAfter_append (front parts : List Part) :
    endsAfter afterOperand (front ++ parts) =
      endsAfter (endsAfter afterOperand front) parts := by
  rw [endsAfter, endsAfter, endsAfter, List.getLast?_append]
  cases parts.getLast? with
  | none => rfl
  | some last => rfl

theorem Lexeme.endsOperand_eq_endsAfter {lexeme : Lexeme}
    (scanned : Lexeme.scan reading afterOperand first rest = .ok lexeme) :
    lexeme.endsOperand = endsAfter afterOperand lexeme.parts := by
  cases stands_scan scanned with
  | part => rfl
  | nul => rfl

/-! ## Reading on -/

/-- Only blanks have no parts. -/
theorem forall_blank_of_readParts (read : readParts reading afterOperand text = .ok []) :
    ∀ character ∈ text, Text.isBlank character = true := by
  rw [← List.dropWhile_eq_nil_iff]
  cases found : text.dropWhile Text.isBlank with
  | nil => rfl
  | cons first rest =>
      cases scanned : Lexeme.scan reading afterOperand first rest with
      | error error =>
          rw [readParts_of_scan_error found scanned] at read
          contradiction
      | ok lexeme =>
          rw [readParts_of_scan found scanned] at read
          obtain ⟨later, -, none⟩ := Except.map_eq_ok_iff.1 read
          cases Lexeme.stands_scan scanned with
          | part => cases none
          | nul => cases none

/-- Blanks before a text only move its errors. -/
theorem readParts_append_of_blank (blank : ∀ character ∈ blanks, Text.isBlank character = true)
    (text : List Char) :
    readParts reading afterOperand (blanks ++ text) =
      (readParts reading afterOperand text).mapError
        (ExpressionError.shift (Text.byteWidth blanks)) := by
  have dropped : (blanks ++ text).dropWhile Text.isBlank = text.dropWhile Text.isBlank :=
    List.dropWhile_append_of_pos blank
  have taken : (blanks ++ text).takeWhile Text.isBlank = blanks ++ text.takeWhile Text.isBlank :=
    List.takeWhile_append_of_pos blank
  cases found : text.dropWhile Text.isBlank with
  | nil =>
      rw [readParts_of_blank found, readParts_of_blank (dropped.trans found)]
      rfl
  | cons first rest =>
      cases scanned : Lexeme.scan reading afterOperand first rest with
      | error error =>
          rw [readParts_of_scan_error found scanned,
            readParts_of_scan_error (dropped.trans found) scanned, taken]
          simp [Except.mapError]
      | ok lexeme =>
          rw [readParts_of_scan found scanned, readParts_of_scan (dropped.trans found) scanned,
            taken]
          cases readParts reading lexeme.endsOperand lexeme.rest <;>
            simp [Except.mapError, Except.map, Nat.add_assoc]

/-- A text that was read is read in the same way in front of another one. -/
theorem readParts_append (read : readParts reading afterOperand before = .ok parts)
    (noNul : .operator (.unary .nul) ∉ parts) (apart : Apart before after) :
    readParts reading afterOperand (before ++ after) =
      ((readParts reading (endsAfter afterOperand parts) after).mapError
        (ExpressionError.shift (Text.byteWidth before))).map (parts ++ ·) := by
  fun_induction readParts reading afterOperand before generalizing parts with
  | case1 afterOperand before blank =>
      cases read
      rw [readParts_append_of_blank (List.dropWhile_eq_nil_iff.1 blank)]
      rw [endsAfter_nil]
      cases readParts reading afterOperand after <;> rfl
  | case2 => contradiction
  | case3 afterOperand before first rest found blanks lexeme scanned bytes =>
      rename_i ih
      obtain ⟨later, readLater, rfl⟩ := Except.map_eq_ok_iff.1 read
      have readRest := Except.mapError_eq_ok_iff.1 readLater
      rw [List.mem_append, not_or] at noNul
      have apartRest := apart.of_scan found scanned noNul.1
      have ends := Lexeme.endsOperand_eq_endsAfter scanned
      have notBlank := not_blank_of_dropWhile found
      obtain ⟨more, taken, split⟩ := Lexeme.covers_scan scanned
      obtain ⟨front, _, left⟩ := lexeme
      cases taken
      subst split
      have scannedOn := Lexeme.scan_of_sameAhead scanned noNul.1 apartRest.sameAhead
      have whole : before = before.takeWhile Text.isBlank ++ (first :: more ++ left) := by
        rw [List.cons_append, ← found, List.takeWhile_append_dropWhile]
      rw [whole, List.append_assoc, List.append_assoc,
        readParts_append_of_blank blank_of_mem_takeWhile, List.cons_append,
        readParts_cons_of_scan notBlank scannedOn]
      have bytesBefore : Text.byteWidth before =
          Text.byteWidth (before.takeWhile Text.isBlank) +
            (Text.byteWidth (first :: more) + Text.byteWidth left) := by
        conv => lhs; rw [whole]
        rw [Text.byteWidth_append, Text.byteWidth_append]
      rw [endsAfter_append, ← ends]
      specialize ih readRest noNul.2 apartRest
      dsimp only [Lexeme.endsOperand] at ih ⊢
      rw [ih, ← whole, bytesBefore]
      cases readParts reading (endsAfter (front.getLast?.any Part.endsOperand) later) after <;>
        simp [Except.mapError, Except.map, Nat.add_assoc]

/-- The parts of a text do not depend on the blanks at its ends. -/
theorem readParts_of_trim
    (read : readParts reading afterOperand (Text.trim Text.isBlank text) = .ok parts)
    (noNul : .operator (.unary .nul) ∉ parts) :
    readParts reading afterOperand text = .ok parts := by
  obtain ⟨trail, blank, whole⟩ := Text.exists_eq_append_trim Text.isBlank text
  have stops : Lexeme.Stops trail := by
    have ends := Lexeme.stops_nil.append_of_blank blank
    rwa [List.append_nil] at ends
  rw [whole, List.append_assoc, readParts_append_of_blank blank_of_mem_takeWhile,
    readParts_append read noNul (.inl stops),
    readParts_of_blank (List.dropWhile_eq_nil_iff.2 blank)]
  simp [Except.map, Except.mapError]

/-! ## Blanks between two texts -/

/-- Only a sign depends on what was read before it. -/
theorem Lexeme.scan_of_not_sign (noSign : first ≠ '+' ∧ first ≠ '-') (reading : Reading)
    (afterOperand other : Bool) (rest : List Char) :
    scan reading afterOperand first rest = scan reading other first rest := by
  have same : punctuation? afterOperand first = punctuation? other first := by
    unfold punctuation?
    split
    · exact absurd rfl noSign.1
    · exact absurd rfl noSign.2
    all_goals rfl
  rw [scan, scan, same]

theorem readParts_cons_of_not_sign (notBlank : Text.isBlank first = false)
    (noSign : first ≠ '+' ∧ first ≠ '-') (afterOperand other : Bool) :
    readParts reading afterOperand (first :: rest) = readParts reading other (first :: rest) := by
  have same := Lexeme.scan_of_not_sign noSign reading afterOperand other rest
  cases scanned : Lexeme.scan reading other first rest with
  | error error =>
      rw [readParts_cons_of_scan_error notBlank scanned,
        readParts_cons_of_scan_error notBlank (same.trans scanned)]
  | ok lexeme =>
      rw [readParts_cons_of_scan notBlank scanned,
        readParts_cons_of_scan notBlank (same.trans scanned)]

/-- The two operators that a character can be. -/
inductive IsSign : Char → UnaryOp → BinaryOp → Prop
  | plus : IsSign '+' .plus .plus
  | minus : IsSign '-' .minus .minus

variable {unary : UnaryOp} {binary : BinaryOp}

theorem IsSign.isBlank_eq_false (sign : IsSign first unary binary) :
    Text.isBlank first = false := by
  cases sign with
  | plus => rfl
  | minus => rfl

/-- A sign is one of the two operators, and what follows it begins an operand. -/
theorem IsSign.readParts_cons (sign : IsSign first unary binary) (afterOperand : Bool) :
    readParts reading afterOperand (first :: rest) =
      ((readParts reading false rest).mapError (ExpressionError.shift 1)).map
        ((.operator (if afterOperand then .binary binary else .unary unary)) :: ·) := by
  have scanned : Lexeme.scan reading afterOperand first rest =
      .ok
        { parts := [.operator (if afterOperand then .binary binary else .unary unary)]
          taken := [first]
          rest } := by
    cases sign with
    | plus => rfl
    | minus => rfl
  have width : Text.byteWidth [first] = 1 := by
    cases sign with
    | plus => rfl
    | minus => rfl
  rw [readParts_cons_of_scan sign.isBlank_eq_false scanned, width]
  rfl

theorem readParts_append_blanks (read : readParts reading false before = .ok parts)
    (noNul : .operator (.unary .nul) ∉ parts) (notEmpty : blanks ≠ [])
    (blank : ∀ character ∈ blanks, Text.isBlank character = true) (after : List Char) :
    readParts reading false (before ++ blanks ++ after) =
      ((readParts reading (endsAfter false parts) after).mapError
        (ExpressionError.shift (Text.byteWidth (before ++ blanks)))).map (parts ++ ·) := by
  obtain ⟨blankFirst, others, rfl⟩ := List.exists_cons_of_ne_nil notEmpty
  have stops := Lexeme.stops_blank (blank blankFirst List.mem_cons_self) (others ++ after)
  rw [List.append_assoc, List.cons_append, readParts_append read noNul (.inl stops),
    ← List.cons_append, readParts_append_of_blank blank]
  cases readParts reading (endsAfter false parts) after <;> simp [Except.mapError, Except.map]

theorem endsAfter_false_eq_true_iff :
    endsAfter false parts = true ↔
      ∃ last, parts.getLast? = some last ∧ (∀ op, last ≠ .operator op) ∧ last ≠ .opening := by
  rw [endsAfter]
  cases parts.getLast? with
  | none => simp
  | some last => cases last <;> simp [Part.endsOperand]

/-- Texts with blanks between them are read one after the other.  The errors of the second
one only move, and a sign at its front is binary exactly after a part that may end an
operand. -/
theorem readParts_juxtaposition (read : readParts reading false before = .ok parts)
    (noNul : .operator (.unary .nul) ∉ parts) (notEmpty : blanks ≠ [])
    (blank : ∀ character ∈ blanks, Text.isBlank character = true)
    (notBlank : Text.isBlank first = false) (rest : List Char) :
    (first ≠ '+' ∧ first ≠ '-' →
      readParts reading false (before ++ blanks ++ first :: rest) =
        ((readParts reading false (first :: rest)).mapError
          (ExpressionError.shift (Text.byteWidth (before ++ blanks)))).map (parts ++ ·)) ∧
    ∀ unary binary, IsSign first unary binary →
      ∃ (outcome : Except ExpressionError (List Part)) (operator : Operator),
        readParts reading false (first :: rest) =
          outcome.map (.operator (.unary unary) :: ·) ∧
        readParts reading false (before ++ blanks ++ first :: rest) =
          (outcome.mapError
            (ExpressionError.shift (Text.byteWidth (before ++ blanks)))).map
              (parts ++ .operator operator :: ·) ∧
        (operator = .binary binary ∨ operator = .unary unary) ∧
        (operator = .binary binary ↔
          ∃ last, parts.getLast? = some last ∧ (∀ op, last ≠ .operator op) ∧
            last ≠ .opening) := by
  have whole := readParts_append_blanks read noNul notEmpty blank (first :: rest)
  constructor
  · intro noSign
    rw [whole, readParts_cons_of_not_sign notBlank noSign _ false]
  · intro unary binary sign
    refine ⟨(readParts reading false rest).mapError (ExpressionError.shift 1),
      if endsAfter false parts then .binary binary else .unary unary,
      sign.readParts_cons false, ?_, ?_, ?_⟩
    · rw [whole, sign.readParts_cons]
      cases readParts reading false rest <;> rfl
    · cases endsAfter false parts with
      | true => exact .inl rfl
      | false => exact .inr rfl
    · rw [← endsAfter_false_eq_true_iff]
      cases endsAfter false parts <;> simp

/-- A minus after the mark of a symbol is binary, and a stray character is found as many
bytes later as come before it. -/
theorem readParts_juxtaposition_of_minus :
    let before := "(FOO##".toList
    let blanks := [' ', '\t']
    let parts : List Part :=
      [.opening, .symbol { name := "FOO", external := true, root := false }]
    readParts {} false before = .ok parts ∧ .operator (.unary .nul) ∉ parts ∧ blanks ≠ [] ∧
      (∀ character ∈ blanks, Text.isBlank character = true) ∧
      Text.isBlank '-' = false ∧ Text.isBlank 'é' = false ∧
      readParts {} false (before ++ blanks ++ ['-', '2']) =
        .ok (parts ++ [.operator (.binary .minus), .number 2]) ∧
      readParts {} false (before ++ blanks ++ ['é']) = .error (.strayCharacter 'é' 9) := by
  intro before blanks parts
  have read : readParts {} false before = .ok parts := by decide +kernel
  have noNul : .operator (.unary .nul) ∉ parts := by decide
  have notEmpty : blanks ≠ [] := by decide
  have blank : ∀ character ∈ blanks, Text.isBlank character = true :=
    List.all_eq_true.1 (by decide)
  have signed : readParts {} false ['-', '2'] =
      .ok [.operator (.unary .minus), .number 2] := by
    decide +kernel
  have stray : readParts {} false ['é'] = .error (.strayCharacter 'é' 1) := by decide +kernel
  refine ⟨read, noNul, notEmpty, blank, rfl, rfl, ?_, ?_⟩
  · obtain ⟨outcome, operator, alone, together, -, isBinary⟩ :=
      (readParts_juxtaposition read noNul notEmpty blank rfl ['2']).2 _ _ .minus
    obtain ⟨later, rfl, equal⟩ := Except.map_eq_ok_iff.1 (alone.symm.trans signed)
    obtain rfl := (List.cons.inj equal).2
    obtain rfl := isBinary.2 ⟨_, rfl, nofun, nofun⟩
    exact together
  · have together :=
      (readParts_juxtaposition read noNul notEmpty blank (by decide : Text.isBlank 'é' = false)
        []).1 (by decide)
    rw [together, stray]
    rfl

end RelocExpr
