import RelocExpr.Proofs.Juxtaposition
import RelocExpr.Proofs.Reordering

/-!
# Signs fit where they stand

A plus or a minus is read as a binary operator after a part that may end an operand, and else
as a unary one.  When neighbours are checked, what ends an operand is said in another way,
which differs for strings.  Still no sign is ever misplaced: the strings that are left by then
are long, and their being among other parts is found out first.
-/

namespace RelocExpr

variable {reading : Reading} {afterOperand isBinary : Bool} {part : Part}
variable {parts before after : List Part}

/-! ## Signs -/

/-- The part is one of the two operators that a sign can be, the unary or the binary one. -/
inductive Part.IsSign : (isBinary : Bool) → Part → Prop where
  | unary {character : Char} {unary : UnaryOp} {binary : BinaryOp} :
      RelocExpr.IsSign character unary binary → IsSign false (.operator (.unary unary))
  | binary {character : Char} {unary : UnaryOp} {binary : BinaryOp} :
      RelocExpr.IsSign character unary binary → IsSign true (.operator (.binary binary))

/-- Every sign is binary after a part that may end an operand, and else unary.  Whether such
a part stands before all of them is given. -/
def SignsAgree (afterOperand : Bool) : List Part → Prop
  | [] => True
  | part :: rest =>
      (∀ isBinary, part.IsSign isBinary → isBinary = afterOperand) ∧
        SignsAgree part.endsOperand rest

theorem signsAgree_append {front : List Part} :
    SignsAgree afterOperand (front ++ parts) ↔
      SignsAgree afterOperand front ∧ SignsAgree (endsAfter afterOperand front) parts := by
  induction front generalizing afterOperand with
  | nil => exact (and_iff_right trivial).symm
  | cons part front ih =>
      have ends : endsAfter afterOperand (part :: front) = endsAfter part.endsOperand front :=
        endsAfter_append [part] front
      rw [List.cons_append, SignsAgree, SignsAgree, ih, ends, and_assoc]

/-- Only operators are signs. -/
theorem signsAgree_singleton (other : part.operator? = none) : SignsAgree afterOperand [part] := by
  refine ⟨?_, trivial⟩
  intro isBinary sign
  cases sign with
  | unary => contradiction
  | binary => contradiction

/-! ## Reading -/

/-- The signs are not spelled as words. -/
theorem not_isSign_of_ofKeyword? {name : String} {operator : Operator}
    (found : Operator.ofKeyword? name = some operator) :
    ¬(Part.operator operator).IsSign isBinary := by
  have listed : operator ∈ Operator.keywords := List.mem_of_find?_eq_some found
  intro sign
  cases sign with
  | unary sign =>
      cases sign with
      | plus => exact absurd listed (by decide)
      | minus => exact absurd listed (by decide)
  | binary sign =>
      cases sign with
      | plus => exact absurd listed (by decide)
      | minus => exact absurd listed (by decide)

namespace Lexeme

variable {first : Char} {rest : List Char} {lexeme : Lexeme}

theorem signsAgree_unmarkedParts (name : String) (text : List Char) :
    SignsAgree afterOperand (unmarkedParts reading name text).1 := by
  have keyword {operator : Operator} (found : Operator.ofKeyword? name = some operator)
      (parts : List Part) (agree : SignsAgree false parts) :
      SignsAgree afterOperand (.operator operator :: parts) :=
    ⟨fun _ sign => absurd sign (not_isSign_of_ofKeyword? found), agree⟩
  unfold unmarkedParts
  split
  · exact signsAgree_singleton rfl
  · split
    · next found => exact keyword found _ (signsAgree_singleton rfl)
    · next found => exact keyword found _ trivial
    · exact signsAgree_singleton rfl

theorem signsAgree_word (root : Bool) (first : Char) (rest : List Char) :
    SignsAgree afterOperand (word reading root first rest).parts := by
  unfold word
  dsimp only
  split
  · exact signsAgree_singleton rfl
  · split
    · exact signsAgree_singleton rfl
    · rw [apply_ite Lexeme.parts, ite_self]
      exact signsAgree_unmarkedParts _ _

theorem signsAgree_scanWord (scanned : scanWord reading first rest = .ok lexeme) :
    SignsAgree afterOperand lexeme.parts := by
  unfold scanWord at scanned
  split at scanned
  · split at scanned
    · split at scanned
      · cases scanned
        exact signsAgree_word ..
      · contradiction
    · contradiction
  · cases scanned
    exact signsAgree_word ..

/-- Only a sign depends on what was read before it, and it takes the arity that is asked for. -/
theorem signsAgree_of_punctuation? (found : punctuation? afterOperand first = some part) :
    SignsAgree afterOperand [part] := by
  refine ⟨?_, trivial⟩
  intro isBinary sign
  unfold punctuation? at found
  split at found
  case h_1 | h_2 =>
    cases found
    cases afterOperand with
    | true =>
        cases sign
        rfl
    | false =>
        cases sign
        rfl
  case h_3 | h_4 | h_5 =>
    cases found
    cases sign with
    | binary sign => cases sign
  case h_6 | h_7 =>
    cases found
    cases sign
  case h_8 => contradiction

/-- A lexeme is a sign of the arity that is asked for, or no sign. -/
theorem signsAgree_scan (scanned : scan reading afterOperand first rest = .ok lexeme) :
    SignsAgree afterOperand lexeme.parts := by
  have number (value : UInt16) : SignsAgree afterOperand [.number value] :=
    signsAgree_singleton rfl
  unfold scan at scanned
  split at scanned
  · obtain ⟨value, -, rfl⟩ := scanNumber_eq_ok_iff.1 scanned
    exact number value
  split at scanned
  · obtain ⟨value, -, rfl⟩ := scanMarked_eq_ok_iff.1 scanned
    exact number value
  split at scanned
  · obtain ⟨value, -, rfl⟩ := scanMarked_eq_ok_iff.1 scanned
    exact number value
  split at scanned
  · obtain ⟨quoted, part, -, known, rfl⟩ := scanString_eq_ok_iff.1 scanned
    apply signsAgree_singleton
    cases part with
    | operator => exact absurd known literalPart?_ne_operator
    | address | symbol | opening | closing | bytes => rfl
  split at scanned
  · obtain ⟨_, _, value, -, -, -, rfl⟩ := scanHexString_eq_ok_iff.1 scanned
    exact number value
  split at scanned
  · next found =>
      cases scanned
      exact signsAgree_of_punctuation? found
  split at scanned
  · exact signsAgree_scanWord scanned
  · contradiction

end Lexeme

/-- The signs of a text agree with what stands before them. -/
theorem signsAgree_of_readParts {text : List Char}
    (read : readParts reading afterOperand text = .ok parts) :
    SignsAgree afterOperand parts := by
  fun_induction readParts reading afterOperand text generalizing parts with
  | case1 =>
      cases read
      trivial
  | case2 => contradiction
  | case3 afterOperand text first rest found blanks lexeme scanned bytes =>
      rename_i ih
      obtain ⟨later, readLater, rfl⟩ := Except.map_eq_ok_iff.1 read
      have agreeLater := ih (Except.mapError_eq_ok_iff.1 readLater)
      rw [Lexeme.endsOperand_eq_endsAfter scanned] at agreeLater
      exact signsAgree_append.2 ⟨Lexeme.signsAgree_scan scanned, agreeLater⟩

/-! ## Checking -/

/-- A sign that agrees with what stands before it fits there, unless that is a string. -/
theorem SignsAgree.fits (agree : SignsAgree false (before ++ part :: after))
    (sign : part.IsSign isBinary) :
    part.Fits before.getLast? ∨
      ∃ content literal, before.getLast? = some (.bytes content literal) := by
  have arity : isBinary = endsAfter false before := (signsAgree_append.1 agree).2.1 _ sign
  rw [endsAfter] at arity
  cases sign with
  | unary =>
      left
      cases last : before.getLast? with
      | none => exact .inl rfl
      | some previous =>
          rw [last] at arity
          cases previous with
          | operator op => exact .inr (.inl ⟨op, rfl⟩)
          | opening => exact .inr (.inr rfl)
          | address | symbol | closing | bytes => contradiction
  | binary =>
      cases last : before.getLast? with
      | none =>
          rw [last] at arity
          contradiction
      | some previous =>
          rw [last] at arity
          cases previous with
          | address value => exact .inl (.inl ⟨value, rfl⟩)
          | symbol ref => exact .inl (.inr (.inl ⟨ref, rfl⟩))
          | closing => exact .inl (.inr (.inr rfl))
          | bytes content literal => exact .inr ⟨content, literal, rfl⟩
          | operator | opening => contradiction

theorem isSign_absorbString (sign : (absorbString part).IsSign isBinary) :
    part.IsSign isBinary := by
  generalize absorbed : absorbString part = image at sign
  cases sign with
  | unary sign =>
      rw [absorbString_eq_operator_iff.1 absorbed]
      exact .unary sign
  | binary sign =>
      rw [absorbString_eq_operator_iff.1 absorbed]
      exact .binary sign

/-- Strings that have become numbers end operands as before. -/
theorem SignsAgree.map_absorbString (agree : SignsAgree afterOperand parts) :
    SignsAgree afterOperand (parts.map absorbString) := by
  induction parts generalizing afterOperand with
  | nil => trivial
  | cons part rest ih =>
      refine ⟨fun isBinary sign => agree.1 isBinary (isSign_absorbString sign), ?_⟩
      rw [part.endsOperand_absorbString]
      exact ih agree.2

/-- The parts that are checked have their signs where they were read. -/
theorem signsAgree_simplifyParts {text : List Char}
    (read : readParts reading false text = .ok parts) :
    SignsAgree false (simplifyParts parts) := by
  by_cases hasNul : .operator (.unary .nul) ∈ parts
  · obtain ⟨holds, value⟩ := simplifyParts_of_nul read hasNul
    rw [value]
    exact signsAgree_singleton rfl
  · rw [simplifyParts_of_noNul hasNul]
    exact (signsAgree_of_readParts read).map_absorbString

namespace Expression

variable {isByte : Bool} {text : String} {expression : Expression}

/-- When a part of an expression that was read is misplaced, it is no sign.  Every sign is of
an arity that fits the part before it, unless a long string stands among the parts, which is
what the expression is refused for. -/
theorem not_isSign_of_misplaced (found : read reading isByte text = .ok expression) :
    (∀ token previous position,
      expression.toPostfix.1 = .error (.misplaced token previous position) →
        ∃ index part, position = index + 1 ∧
          expression.toPostfix.2.parts[index]? = some part ∧
          ∀ isBinary, ¬part.IsSign isBinary) ∧
      ∀ before sign after isBinary, simplifyParts expression.parts = before ++ sign :: after →
        sign.IsSign isBinary →
          sign.Fits before.getLast? ∨ expression.toPostfix.1 = .error .bytesNotAlone := by
  have unordered := isPostfix_of_read found
  have agree := signsAgree_simplifyParts (readParts_of_read found)
  constructor
  · intro token previous position refused
    have left := toPostfix_snd_of_error refused
    rw [toPostfix_fst unordered, Except.map_eq_error_iff, orderParts_eq_error_iff_rejected]
      at refused
    rw [left]
    dsimp only
    generalize simplifyParts expression.parts = parts at agree refused
    cases refused with
    | @misplaced before after part plain adjoin misfit =>
        refine ⟨before.length, part, rfl, by simp, ?_⟩
        intro isBinary sign
        rcases agree.fits sign with fits | ⟨content, literal, last⟩
        · exact misfit fits
        · exact plain.noBytes content literal
            (List.mem_append_left _ (List.mem_of_getLast? last))
  · intro before sign after isBinary split isSign
    rw [split] at agree
    refine (agree.fits isSign).imp_right ?_
    rintro ⟨content, literal, last⟩
    have member : .bytes content literal ∈ simplifyParts expression.parts := by
      rw [split]
      exact List.mem_append_left _ (List.mem_of_getLast? last)
    have several : 2 ≤ (simplifyParts expression.parts).length := by
      have nonempty := List.length_pos_of_mem (List.mem_of_getLast? last)
      rw [split, List.length_append, List.length_cons]
      omega
    rw [toPostfix_fst unordered, orderParts_of_bytes_mem several member]
    rfl

end Expression

/-- In `'AB' 7 - +1` the number after the string is misplaced.  The minus after that number is
binary and the plus after the minus is unary, and both fit. -/
theorem not_isSign_of_misplaced_number :
    let reading : Reading := { data := true }
    let text := "'AB' 7 - +1"
    let later : List Part :=
      [.number 7, .operator (.binary .minus), .operator (.unary .plus), .number 1]
    let expression : Expression :=
      { source := text
        parts := .bytes [0x41, 0x42] "'AB'" :: later
        isByte := false
        isPostfix := false }
    Expression.read reading false text = .ok expression ∧
      expression.toPostfix.1 = .error (.misplaced "0007h" "4241h" 2) ∧
      (∃ index part, 2 = index + 1 ∧ expression.toPostfix.2.parts[index]? = some part ∧
        ∀ isBinary, ¬part.IsSign isBinary) ∧
      (Part.operator (.binary .minus)).Fits (some (.number 7)) ∧
      (Part.operator (.unary .plus)).Fits (some (.operator (.binary .minus))) := by
  intro reading text later expression
  have found : Expression.read reading false text = .ok expression := by decide +kernel
  have refused : expression.toPostfix.1 = .error (.misplaced "0007h" "4241h" 2) := by
    decide +kernel
  have simple : simplifyParts expression.parts = .number 0x4241 :: later := by decide
  obtain ⟨noSign, fits⟩ := Expression.not_isSign_of_misplaced found
  have noLongString : expression.toPostfix.1 ≠ .error .bytesNotAlone := by
    rw [refused]
    exact nofun
  refine ⟨found, refused, noSign _ _ _ refused, ?_, ?_⟩
  · exact (fits [.number 0x4241, .number 7] _ _ _ simple (.binary .minus)).resolve_right
      noLongString
  · exact (fits [.number 0x4241, .number 7, .operator (.binary .minus)] _ _ _ simple
      (.unary .plus)).resolve_right noLongString

end RelocExpr
