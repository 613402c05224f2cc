import Mathlib.Data.List.Forall2
import RelocExpr.Proofs.DataStrings

/-!
# Putting an expression into postfix order again

An expression that was read can be put into postfix order as often as one likes: after the
first time the outcome stays the same, error or not, and nothing is changed any more.  An
error leaves the expression as it was read, but for its short strings, which have become
numbers.  With `NUL` there is no error.

It is the reading that this rests on.  It leaves one part after `NUL`, its value, so that to
simplify once more finds nothing to do.
-/

namespace RelocExpr

/-! ## Short strings as numbers -/

/-- The number that bytes spell, from the least significant one on. -/
def littleEndian (content : List UInt8) : Nat :=
  content.foldr (fun byte above => byte.toNat + 256 * above) 0

/-- The bits of two bytes do not overlap when one is moved above the other. -/
theorem toNat_shiftLeft_or (low high : UInt8) :
    (high.toUInt16 <<< 8 ||| low.toUInt16).toNat = low.toNat + 256 * high.toNat := by
  have lowBound : low.toNat < 2 ^ 8 := low.toNat_lt
  have highBound : high.toNat < 2 ^ 8 := high.toNat_lt
  have moved : high.toNat <<< 8 = 256 * high.toNat := by
    rw [Nat.shiftLeft_eq]
    omega
  calc (high.toUInt16 <<< 8 ||| low.toUInt16).toNat
      = (high.toNat <<< 8) % 2 ^ 16 ||| low.toNat := by
        rw [UInt16.toNat_or, UInt16.toNat_shiftLeft]
        rfl
    _ = high.toNat <<< 8 ||| low.toNat := by
        rw [Nat.mod_eq_of_lt (by omega)]
    _ = high.toNat <<< 8 + low.toNat := (Nat.shiftLeft_add_eq_or_of_lt lowBound _).symm
    _ = low.toNat + 256 * high.toNat := by omega

/-- At most two bytes stand for the number that they spell. -/
theorem shortString?_eq_littleEndian {content : List UInt8} (short : content.length ≤ 2) :
    shortString? content = some (.ofNat (littleEndian content)) := by
  match content with
  | [] => rfl
  | [low] => simp [shortString?, littleEndian]
  | [low, high] =>
      have spelled : littleEndian [low, high] = low.toNat + 256 * high.toNat := by
        simp [littleEndian]
      rw [shortString?, spelled, ← toNat_shiftLeft_or, UInt16.ofNat_toNat]
  | _ :: _ :: _ :: _ => simp at short

/-- A part and what is left of it after an error: a string of at most two bytes is the number
that they spell, and any other part stays. -/
inductive Part.Keeps : Part → Part → Prop where
  | number {content : List UInt8} {literal : String} :
      content.length ≤ 2 →
      Keeps (.bytes content literal) (.number (.ofNat (littleEndian content)))
  | same {part : Part} :
      (∀ content literal, part = .bytes content literal → 2 < content.length) →
      Keeps part part

theorem Part.keeps_absorbString (part : Part) : part.Keeps (absorbString part) := by
  cases part with
  | bytes content literal =>
      rw [absorbString]
      by_cases short : content.length ≤ 2
      · rw [shortString?_eq_littleEndian short]
        exact .number short
      · rw [shortString?_eq_none_iff.2 (by omega)]
        refine .same ?_
        rintro _ _ ⟨⟩
        omega
  | address | symbol | operator | opening | closing =>
      refine .same ?_
      rintro _ _ ⟨⟩

/-! ## Simplifying again -/

/-- `NUL` leaves nothing but its value. -/
theorem simplifyParts_of_nul {reading : Reading} {afterOperand : Bool} {text : List Char}
    {parts : List Part} (read : readParts reading afterOperand text = .ok parts)
    (hasNul : .operator (.unary .nul) ∈ parts) :
    ∃ holds, simplifyParts parts = [.address (.truth holds)] := by
  rcases nul_cases_of_readParts read with noNul | ⟨before, holds, noNul, rfl⟩
  · exact absurd hasNul noNul
  · exact ⟨holds, simplifyParts_append_nul noNul _⟩

/-- What was read is simplified once and for all. -/
theorem simplifyParts_simplifyParts {reading : Reading} {afterOperand : Bool}
    {text : List Char} {parts : List Part}
    (read : readParts reading afterOperand text = .ok parts) :
    simplifyParts (simplifyParts parts) = simplifyParts parts := by
  by_cases hasNul : .operator (.unary .nul) ∈ parts
  · obtain ⟨holds, value⟩ := simplifyParts_of_nul read hasNul
    rw [value]
    rfl
  · rw [simplifyParts_of_noNul hasNul, simplifyParts_map_absorbString,
      simplifyParts_of_noNul hasNul]

/-! ## Ordering again -/

namespace Expression

variable {reading : Reading} {isByte : Bool} {text : String} {expression : Expression}

/-- Only an expression that is not in postfix order can be refused. -/
theorem isPostfix_of_toPostfix_error {error : ExpressionError}
    (refused : expression.toPostfix.1 = .error error) : expression.isPostfix = false := by
  rw [Bool.eq_false_iff]
  intro isPostfix
  rw [toPostfix_of_isPostfix isPostfix] at refused
  contradiction

/-- It is left with its parts simplified. -/
theorem toPostfix_snd_of_error {error : ExpressionError}
    (refused : expression.toPostfix.1 = .error error) :
    expression.toPostfix.2 = { expression with parts := simplifyParts expression.parts } := by
  have unordered := isPostfix_of_toPostfix_error refused
  rw [toPostfix_fst unordered, Except.map_eq_error_iff] at refused
  simp only [toPostfix, unordered, Bool.false_eq_true, if_false, refused]

theorem isPostfix_of_toPostfix (accepted : expression.toPostfix.1 = .ok ()) :
    expression.toPostfix.2.isPostfix = true := by
  cases isPostfix : expression.isPostfix with
  | true => rwa [toPostfix_of_isPostfix isPostfix]
  | false =>
      obtain ⟨parts, -, ordered⟩ := (toPostfix_eq_ok_iff isPostfix).1 (Prod.ext accepted rfl)
      exact congrArg Expression.isPostfix ordered

/-- If the parts need not be simplified twice, the second time is like the first. -/
theorem toPostfix_toPostfix
    (settled : simplifyParts (simplifyParts expression.parts) = simplifyParts expression.parts) :
    expression.toPostfix.2.toPostfix = expression.toPostfix := by
  cases outcome : expression.toPostfix.1 with
  | ok =>
      rw [toPostfix_of_isPostfix (isPostfix_of_toPostfix outcome)]
      exact Prod.ext outcome.symm rfl
  | error error =>
      have unordered := isPostfix_of_toPostfix_error outcome
      have left := toPostfix_snd_of_error outcome
      have leftUnordered : expression.toPostfix.2.isPostfix = false := by rw [left, unordered]
      have leftParts : expression.toPostfix.2.parts = simplifyParts expression.parts := by
        rw [left]
      -- The second time begins with other parts, which simplify to the same.
      have again : expression.toPostfix.2.toPostfix.1 = .error error := by
        rw [toPostfix_fst leftUnordered, leftParts, settled, ← toPostfix_fst unordered, outcome]
      refine Prod.ext (again.trans outcome.symm) ?_
      rw [toPostfix_snd_of_error again, leftParts, settled, left]

/-- What was read with `NUL` in it is put into postfix order, whatever stands around it. -/
theorem toPostfix_of_nul (found : read reading isByte text = .ok expression)
    (hasNul : .operator (.unary .nul) ∈ expression.parts) : expression.toPostfix.1 = .ok () := by
  obtain ⟨holds, value⟩ := simplifyParts_of_nul (readParts_of_read found) hasNul
  rw [toPostfix_fst (isPostfix_of_read found), value]
  rfl

/-- To put an expression that was read into postfix order once more has the same outcome and
changes nothing.  An error leaves its source, its size and its order, and each part in its
place, with the short strings as numbers.  It has no `NUL`. -/
theorem toPostfix_again (found : read reading isByte text = .ok expression) :
    let outcome := expression.toPostfix.1
    let later := expression.toPostfix.2
    later.toPostfix = (outcome, later) ∧
      (outcome = .ok () ↔ later.isPostfix = true) ∧
      (∀ error, outcome = .error error →
        later.source = expression.source ∧ later.isByte = expression.isByte ∧
          later.isPostfix = expression.isPostfix ∧
          List.Forall₂ Part.Keeps expression.parts later.parts) ∧
      (.operator (.unary .nul) ∈ expression.parts → outcome = .ok ()) := by
  intro outcome later
  have unordered := isPostfix_of_read found
  refine ⟨toPostfix_toPostfix (simplifyParts_simplifyParts (readParts_of_read found)), ?_, ?_,
    toPostfix_of_nul found⟩
  · constructor
    · exact isPostfix_of_toPostfix
    · intro isPostfix
      cases refused : outcome with
      | ok => rfl
      | error error =>
          have left : later = _ := toPostfix_snd_of_error refused
          rw [left, unordered] at isPostfix
          contradiction
  · intro error refused
    have left : later = _ := toPostfix_snd_of_error refused
    have noNul : .operator (.unary .nul) ∉ expression.parts := by
      intro hasNul
      have accepted : outcome = .ok () := toPostfix_of_nul found hasNul
      rw [accepted] at refused
      contradiction
    rw [left, simplifyParts_of_noNul noNul]
    refine ⟨rfl, rfl, rfl, ?_⟩
    rw [List.forall₂_map_right_iff, List.forall₂_same]
    exact fun part _ => part.keeps_absorbString

end Expression

/-- `'AB' + 'ABC'` is refused for its long string, twice.  By the second time the short one is
a number. -/
theorem toPostfix_again_of_long_string :
    let reading : Reading := { data := true }
    let text := "'AB' + 'ABC'"
    let parts (first : Part) : List Part :=
      [first, .operator (.binary .plus), .bytes [0x41, 0x42, 0x43] "'ABC'"]
    let expression : Expression :=
      { source := text
        parts := parts (.bytes [0x41, 0x42] "'AB'")
        isByte := true
        isPostfix := false }
    let later : Expression := { expression with parts := parts (.number 0x4241) }
    Expression.read reading true text = .ok expression ∧
      expression.toPostfix = (.error .bytesNotAlone, later) ∧
      later.toPostfix = (.error .bytesNotAlone, later) ∧
      List.Forall₂ Part.Keeps expression.parts later.parts := by
  intro reading text parts expression later
  have found : Expression.read reading true text = .ok expression := by decide +kernel
  have refused : expression.toPostfix = (.error .bytesNotAlone, later) := by decide
  obtain ⟨again, -, left, -⟩ := Expression.toPostfix_again found
  rw [refused] at again left
  obtain ⟨-, -, -, kept⟩ := left _ rfl
  exact ⟨found, refused, again, kept⟩

-- No text is read as these parts: of a second `NUL` the first time makes the whole expression,
-- which is refused, and the second time nothing at all, which is not.
example :
    let nul : Part := .operator (.unary .nul)
    let expression : Expression :=
      { source := "NUL NUL", parts := [nul, nul], isByte := false, isPostfix := false }
    expression.toPostfix.1 = .error (.loneToken "NUL") ∧
      expression.toPostfix.2.toPostfix.1 = .ok () := by
  decide

end RelocExpr
