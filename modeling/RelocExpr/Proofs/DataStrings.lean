import RelocExpr.Proofs.Diagnosis
import RelocExpr.Proofs.ReadParts

/-!
# Strings as data

A text can be read in two ways.  Either every string becomes a number at once, or strings
are data and keep their bytes until the parts are put into postfix order; then the short
ones become numbers.  This makes no difference, except for strings that are too long to be
numbers: as data they are not refused at once, but no other parts can stand beside them.
-/

namespace RelocExpr

/-! ## Becoming a number -/

@[simp] theorem absorbString_absorbString (part : Part) :
    absorbString (absorbString part) = absorbString part := by
  cases part with
  | bytes content literal =>
      rw [absorbString]
      cases short : shortString? content with
      | some value => rfl
      | none => simp [absorbString, short]
  | _ => rfl

theorem absorbString_of_not_isBytes {part : Part} (notBytes : part.isBytes = false) :
    absorbString part = part := by
  cases part with
  | bytes => cases notBytes
  | _ => rfl

/-- The sign after a string is the one after its number. -/
@[simp] theorem Part.endsOperand_absorbString (part : Part) :
    (absorbString part).endsOperand = part.endsOperand := by
  cases part with
  | bytes content literal =>
      rw [absorbString]
      cases shortString? content <;> rfl
  | _ => rfl

/-- It does not matter whether strings became numbers before the simplification. -/
theorem simplifyParts_map_absorbString (parts : List Part) :
    simplifyParts (parts.map absorbString) = simplifyParts parts := by
  rw [simplifyParts, simplifyParts, collapseNul_map fun _ => absorbString_eq_operator_iff,
    List.map_map]
  congr 1
  funext part
  exact absorbString_absorbString part

/-! ## Reading in two ways -/

namespace Reading

variable (reading : Reading)

/-- Strings become numbers. -/
def plain : Reading := { reading with data := false }

/-- Strings are data. -/
def asData : Reading := { reading with data := true }

end Reading

namespace Lexeme

/-- A lexeme in a text with strings that become numbers, and with strings that are
data. -/
inductive ScanAlike : (plain asData : Except ExpressionError Lexeme) → Prop
  | error (error : ExpressionError) : ScanAlike (.error error) (.error error)
  | lexeme (parts : List Part) (taken rest : List Char) :
      ScanAlike (.ok { parts := parts.map absorbString, taken, rest })
        (.ok { parts, taken, rest })
  | longString {content : List UInt8} {literal : String} (taken rest : List Char) :
      shortString? content = none →
      ScanAlike (.error (.longString literal 1))
        (.ok { parts := [.bytes content literal], taken, rest })

/-- Lexemes that are no strings are the same in both. -/
theorem ScanAlike.of_stands {reading : Reading} {outcome : Except ExpressionError Lexeme}
    (stands : ∀ lexeme, outcome = .ok lexeme → lexeme.Stands reading.plain) :
    ScanAlike outcome outcome := by
  rcases outcome with error | ⟨parts, taken, rest⟩
  · exact .error error
  · have noBytes : parts.map absorbString = parts := by
      cases stands _ rfl with
      | @part part _ _ notNul onlyData =>
          have notBytes : part.isBytes = false := by
            rw [Bool.eq_false_iff]
            intro isBytes
            cases onlyData isBytes
          rw [List.map_singleton, absorbString_of_not_isBytes notBytes]
      | nul holds => rfl
    have alike := ScanAlike.lexeme parts taken rest
    rwa [noBytes] at alike

variable (reading : Reading)

theorem scanString_alike (quote : Char) (rest : List Char) :
    ScanAlike (scanString reading.plain quote rest) (scanString reading.asData quote rest) := by
  unfold scanString
  dsimp only [Reading.plain, Reading.asData]
  split
  · exact .error _
  · next quoted scanned =>
      simp only [Bool.false_eq_true, if_false, if_true]
      cases short : shortString? quoted.bytes with
      | none => exact .longString _ _ short
      | some value =>
          have alike := ScanAlike.lexeme
            [.bytes quoted.bytes (.ofList (quote :: quoted.taken))] (quote :: quoted.taken)
            quoted.rest
          simpa [absorbString, short] using alike

theorem scan_alike (afterOperand : Bool) (first : Char) (rest : List Char) :
    ScanAlike (scan reading.plain afterOperand first rest)
      (scan reading.asData afterOperand first rest) := by
  by_cases quote : first = '\'' ∨ first = '"'
  · have string (reading : Reading) :
        scan reading afterOperand first rest = scanString reading first rest := by
      rcases quote with rfl | rfl <;> rfl
    rw [string, string]
    exact scanString_alike reading first rest
  · have same : scan reading.asData afterOperand first rest =
        scan reading.plain afterOperand first rest := by
      simp only [scan, Bool.or_eq_true, decide_eq_true_eq, if_neg quote]
      rfl
    rw [same]
    exact .of_stands fun _ scanned => stands_scan scanned

/-- A sign after the lexeme is the same in both. -/
theorem endsOperand_map_absorbString (parts : List Part) (taken rest : List Char) :
    endsOperand { parts := parts.map absorbString, taken, rest } =
      endsOperand { parts, taken, rest } := by
  rw [endsOperand, endsOperand, List.getLast?_map]
  cases parts.getLast? with
  | none => rfl
  | some part => exact part.endsOperand_absorbString

end Lexeme

/-- Some part is a string that is too long to be a number. -/
def HasLongString (parts : List Part) : Prop :=
  ∃ content literal, .bytes content literal ∈ parts ∧ shortString? content = none

/-- The parts of a text with strings that become numbers, and with strings that are
data. -/
inductive ReadAlike : (plain asData : Except ExpressionError (List Part)) → Prop
  | error (error : ExpressionError) : ReadAlike (.error error) (.error error)
  | parts (parts : List Part) : ReadAlike (.ok (parts.map absorbString)) (.ok parts)
  | longString {asData : Except ExpressionError (List Part)} (literal : String) (column : Nat) :
      (∀ parts, asData = .ok parts → HasLongString parts) →
      ReadAlike (.error (.longString literal column)) asData

/-- A lexeme stands before the parts. -/
theorem ReadAlike.prepend {plain asData : Except ExpressionError (List Part)}
    (alike : ReadAlike plain asData) (front : List Part) (bytes : Nat) :
    ReadAlike ((plain.mapError (ExpressionError.shift bytes)).map (front.map absorbString ++ ·))
      ((asData.mapError (ExpressionError.shift bytes)).map (front ++ ·)) := by
  cases alike with
  | error error => exact .error _
  | parts parts =>
      have whole := ReadAlike.parts (front ++ parts)
      rwa [List.map_append] at whole
  | longString literal column long =>
      refine .longString literal (bytes + column) ?_
      intro whole read
      obtain ⟨parts, later, rfl⟩ := Except.map_eq_ok_iff.1 read
      obtain ⟨content, literal, member, long⟩ := long parts (Except.mapError_eq_ok_iff.1 later)
      exact ⟨content, literal, List.mem_append_right _ member, long⟩

/-- The first lexeme that differs is a string too long for a number. -/
theorem readParts_alike (reading : Reading) (afterOperand : Bool) (text : List Char) :
    ReadAlike (readParts reading.plain afterOperand text)
      (readParts reading.asData afterOperand text) := by
  fun_induction readParts reading.plain afterOperand text with
  | case1 afterOperand text blank =>
      rw [readParts_of_blank blank]
      exact .parts []
  | case2 afterOperand text first rest found blanks error =>
      rename_i scanned
      have alike := Lexeme.scan_alike reading afterOperand first rest
      rw [scanned] at alike
      generalize same : Lexeme.scan reading.asData afterOperand first rest = asData at alike
      cases alike with
      | error =>
          rw [readParts_of_scan_error found same]
          exact .error _
      | @longString content literal taken rest long =>
          rw [readParts_of_scan found same]
          refine .longString literal _ ?_
          intro parts read
          obtain ⟨later, -, rfl⟩ := Except.map_eq_ok_iff.1 read
          exact ⟨content, literal, List.mem_cons_self .., long⟩
  | case3 afterOperand text first rest found blanks lexeme scanned before =>
      rename_i ih
      have alike := Lexeme.scan_alike reading afterOperand first rest
      rw [scanned] at alike
      generalize same : Lexeme.scan reading.asData afterOperand first rest = asData at alike
      cases alike with
      | lexeme parts taken rest =>
          rw [readParts_of_scan found same]
          rw [Lexeme.endsOperand_map_absorbString] at ih ⊢
          exact ih.prepend parts before

/-! ## The outcomes -/

theorem shortString?_eq_none_iff {content : List UInt8} :
    shortString? content = none ↔ 2 < content.length := by
  match content with
  | [] | [_] | [_, _] => simp [shortString?]
  | _ :: _ :: _ :: rest => simp [shortString?]

/-- `NUL` is dropped with the parts before it, and the part after it is kept. -/
theorem simplifyParts_append_nul {before : List Part}
    (noNul : .operator (.unary .nul) ∉ before) (part : Part) :
    simplifyParts (before ++ [.operator (.unary .nul), part]) = [absorbString part] := by
  have notNul : ∀ other ∈ before, decide (other ≠ .operator (.unary .nul)) = true := by
    intro other member
    exact decide_eq_true fun equal => noNul (equal ▸ member)
  rw [simplifyParts, collapseNul, List.dropWhile_append_of_pos notNul]
  rfl

/-- What is left of parts with a long string: that string, or what `NUL` finds out. -/
theorem cases_of_hasLongString {reading : Reading} {afterOperand : Bool} {text : List Char}
    {parts ordered : List Part} (read : readParts reading afterOperand text = .ok parts)
    (long : HasLongString parts) (accepted : orderParts (simplifyParts parts) = .ok ordered) :
    (∃ content literal, 2 < content.length ∧ ordered = [.bytes content literal]) ∨
      ∃ holds, ordered = [.address (.truth holds)] := by
  rcases nul_cases_of_readParts read with noNul | ⟨before, holds, noNul, rfl⟩
  · rw [simplifyParts_of_noNul noNul] at accepted
    obtain ⟨content, literal, member, long⟩ := long
    have absorbed : .bytes content literal ∈ parts.map absorbString :=
      List.mem_map.2 ⟨_, member, absorbString_eq_bytes_iff.2 ⟨rfl, long⟩⟩
    have lone : (parts.map absorbString).length ≤ 1 := by
      by_contra several
      rw [orderParts_of_bytes_mem (by omega) absorbed] at accepted
      cases accepted
    obtain ⟨part, single⟩ := List.length_eq_one_iff.1
      (Nat.le_antisymm lone (List.length_pos_of_mem absorbed))
    rw [single, List.mem_singleton] at absorbed
    rw [single, ← absorbed] at accepted
    cases accepted
    exact .inl ⟨content, literal, shortString?_eq_none_iff.1 long, rfl⟩
  · rw [simplifyParts_append_nul noNul] at accepted
    cases accepted
    exact .inr ⟨holds, rfl⟩

namespace Expression

variable (reading : Reading) (isByte : Bool) (text : String)

/-- As data the strings of a text make no difference, unless one of them is too long to be
a number.  Then the text comes to that string alone, or to what `NUL` finds out, or it is
refused. -/
theorem compile_asData :
    let plain := compile reading.plain isByte text
    let asData := compile reading.asData isByte text
    ((∀ literal column, plain ≠ .error (.longString literal column)) → asData = plain) ∧
      ∀ literal column, plain = .error (.longString literal column) →
        (∃ error, asData = .error error) ∨
          ∃ ordered, asData = .ok ordered ∧
            ((∃ content literal, 2 < content.length ∧
                ordered.parts = [.bytes content literal]) ∨
              ∃ holds, ordered.parts = [.address (.truth holds)]) := by
  intro plain asData
  have alike := readParts_alike reading false (Text.trim Text.isBlank text.toList)
  generalize readPlain : readParts reading.plain false _ = plainParts at alike
  generalize readData : readParts reading.asData false _ = dataParts at alike
  cases alike with
  | error error =>
      have refused : asData = .error error := compile_of_readParts_error readData isByte
      constructor
      · intro _
        rw [refused]
        exact (compile_of_readParts_error readPlain isByte).symm
      · intro literal column _
        exact .inl ⟨error, refused⟩
  | parts parts =>
      have same : asData = plain := by
        simp only [asData, plain, compile_of_readParts readData, compile_of_readParts readPlain,
          simplifyParts_map_absorbString]
      constructor
      · intro _
        exact same
      · intro literal column refused
        exact .inl ⟨_, same.trans refused⟩
  | longString literal column long =>
      constructor
      · intro noLongString
        exact absurd (compile_of_readParts_error readPlain isByte) (noLongString literal column)
      · intro _ _ _
        rcases dataParts with error | parts
        · exact .inl ⟨error, compile_of_readParts_error readData isByte⟩
        · have compiled : asData = _ := compile_of_readParts readData isByte
          rw [compiled]
          cases reordered : orderParts (simplifyParts parts) with
          | error error => exact .inl ⟨error, rfl⟩
          | ok ordered =>
              exact .inr ⟨_, rfl, cases_of_hasLongString readData (long parts rfl) reordered⟩

end Expression

/-- `"AB" + 'C'` is the sum of two numbers, even if strings are data; `'ABC' + NUL` has a
long string, and is not the sum of anything. -/
theorem compile_asData_of_string_sums :
    let reading : Reading := {}
    let short := "\"AB\" + 'C'"
    let long := "'ABC' + NUL"
    Expression.compile reading.asData false short = Expression.compile reading.plain false short ∧
      ((∃ error, Expression.compile reading.asData false long = .error error) ∨
        ∃ ordered, Expression.compile reading.asData false long = .ok ordered ∧
          ((∃ content literal, 2 < content.length ∧
              ordered.parts = [.bytes content literal]) ∨
            ∃ holds, ordered.parts = [.address (.truth holds)])) := by
  intro reading short long
  have compiled : Expression.compile reading.plain false short =
      .ok { source := short
            parts := [.number 0x4241, .number 0x43, .operator (.binary .plus)]
            isByte := false
            isPostfix := true } := by
    decide +kernel
  have refused : Expression.compile reading.plain false long =
      .error (.longString "'ABC'" 1) := by
    decide +kernel
  constructor
  · apply (Expression.compile_asData reading false short).1
    intro literal column
    simp [compiled]
  · exact (Expression.compile_asData reading false long).2 _ _ refused

end RelocExpr
