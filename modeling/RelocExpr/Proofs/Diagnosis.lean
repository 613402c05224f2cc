import RelocExpr.Proofs.Ordering

/-!
# Which parts are refused, and why

Without strings and `NUL` the parts of an expression are those of a grammar:

* an expression is a primary, or two expressions with a binary operator between them;
* a primary is an address, a symbol, a primary after a unary operator, or an expression
  in parentheses.

Other parts are refused.  The first of these reasons that applies is the error: a long
string stands among other parts, a part does not fit the one before it, the last part is
an operator, a parenthesis is closed that was not opened, or one is opened that is not
closed.
-/

namespace RelocExpr

/-! ## Neighbours -/

/-- The part may stand after another one, or at the start. -/
def Part.Fits (part : Part) (previous : Option Part) : Prop :=
  match part with
  | .address _ | .symbol _ | .bytes .. | .opening | .operator (.unary _) =>
      previous = none ∨ (∃ op, previous = some (.operator op)) ∨ previous = some .opening
  | .operator (.binary _) | .closing =>
      (∃ value, previous = some (.address value)) ∨ (∃ ref, previous = some (.symbol ref)) ∨
        previous = some .closing

theorem operandMayFollow_iff (previous : Option Part) :
    operandMayFollow previous = true ↔
      previous = none ∨ (∃ op, previous = some (.operator op)) ∨ previous = some .opening := by
  rcases previous with _ | part
  · simp [operandMayFollow]
  · cases part <;> simp [operandMayFollow]

theorem operandPrecedes_iff (previous : Option Part) :
    operandPrecedes previous = true ↔
      (∃ value, previous = some (.address value)) ∨ (∃ ref, previous = some (.symbol ref)) ∨
        previous = some .closing := by
  rcases previous with _ | part
  · simp [operandPrecedes]
  · cases part <;> simp [operandPrecedes]

theorem Part.mayFollow_iff_fits (part : Part) (previous : Option Part) :
    part.mayFollow previous = true ↔ part.Fits previous := by
  cases part with
  | operator op =>
      cases op with
      | unary => exact operandMayFollow_iff previous
      | binary => exact operandPrecedes_iff previous
  | closing => exact operandPrecedes_iff previous
  | address | symbol | bytes | opening => exact operandMayFollow_iff previous

/-- Every part fits the one before it. -/
def Adjoin (previous : Option Part) : List Part → Prop
  | [] => True
  | part :: rest => part.Fits previous ∧ Adjoin (some part) rest

theorem checkNeighbours_eq_ok_iff {previous : Option Part} {position : Nat}
    {parts : List Part} :
    checkNeighbours previous position parts = .ok () ↔ Adjoin previous parts := by
  induction parts generalizing previous position with
  | nil => simp [checkNeighbours, Adjoin]
  | cons part rest ih =>
      rw [checkNeighbours, Adjoin, ← part.mayFollow_iff_fits]
      by_cases fits : part.mayFollow previous = true
      · simp [fits, ih]
      · simp [fits]

/-- The error is about the first part that does not fit. -/
theorem checkNeighbours_eq_error_iff {previous : Option Part} {position : Nat}
    {parts : List Part} {error : ExpressionError} :
    checkNeighbours previous position parts = .error error ↔
      ∃ before part after, parts = before ++ part :: after ∧ Adjoin previous before ∧
        ¬part.Fits (before.getLast?.or previous) ∧
        error = .misplaced part.description
          ((before.getLast?.or previous).elim "the start of the expression" Part.description)
          (position + before.length) := by
  induction parts generalizing previous position with
  | nil => simp [checkNeighbours]
  | cons first rest ih =>
      have or_first (before : List Part) :
          (first :: before).getLast?.or previous = before.getLast?.or (some first) := by
        rw [List.getLast?_cons]
        cases before.getLast? <;> rfl
      rw [checkNeighbours]
      by_cases fits : first.mayFollow previous = true
      · rw [if_pos fits, ih]
        rw [first.mayFollow_iff_fits] at fits
        constructor
        · rintro ⟨before, part, after, rfl, adjoin, misfit, rfl⟩
          refine ⟨first :: before, part, after, rfl, ⟨fits, adjoin⟩, ?_, ?_⟩
          · rwa [or_first]
          · rw [or_first, List.length_cons, Nat.add_assoc, Nat.add_comm 1]
        · rintro ⟨before, part, after, equal, adjoin, misfit, rfl⟩
          cases before with
          | nil =>
              cases equal
              exact absurd fits misfit
          | cons other before =>
              cases equal
              rw [or_first] at misfit
              refine ⟨before, part, after, rfl, adjoin.2, misfit, ?_⟩
              rw [or_first, List.length_cons, Nat.add_assoc, Nat.add_comm 1]
      · rw [if_neg fits]
        rw [first.mayFollow_iff_fits] at fits
        constructor
        · intro equal
          cases equal
          exact ⟨[], first, rest, rfl, trivial, fits, rfl⟩
        · rintro ⟨before, part, after, equal, adjoin, misfit, rfl⟩
          cases before with
          | nil =>
              cases equal
              rfl
          | cons other before =>
              cases equal
              exact absurd adjoin.1 fits

/-! ## Parentheses -/

/-- Some first parts close more parentheses than they open and were open before. -/
def Overcloses (depth : Nat) (parts : List Part) : Prop :=
  ∃ front, front <+: parts ∧ depth + front.count .opening < front.count .closing

section

variable {depth : Nat} {part : Part} {rest : List Part}

theorem not_overcloses_nil : ¬Overcloses depth [] := by
  rintro ⟨front, shorter, more⟩
  rw [List.prefix_nil.1 shorter] at more
  simp at more

/-- The first part does not close a parenthesis for good. -/
theorem overcloses_cons_iff (later : Nat)
    (counts : ∀ front : List Part, depth + (part :: front).count .opening <
      (part :: front).count .closing ↔ later + front.count .opening < front.count .closing) :
    Overcloses depth (part :: rest) ↔ Overcloses later rest := by
  constructor
  · rintro ⟨front, shorter, more⟩
    rcases List.prefix_cons_iff.1 shorter with rfl | ⟨inner, rfl, innerShorter⟩
    · simp at more
    · exact ⟨inner, innerShorter, (counts inner).1 more⟩
  · rintro ⟨front, shorter, more⟩
    exact ⟨part :: front, List.prefix_cons_iff.2 (.inr ⟨front, rfl, shorter⟩),
      (counts front).2 more⟩

theorem overcloses_zero_closing : Overcloses 0 (.closing :: rest) :=
  ⟨[.closing], by simp, by decide⟩

end

/-- What the check of the parentheses finds out. -/
theorem checkGroups_cases (depth : Nat) (parts : List Part) :
    (Overcloses depth parts ∧ checkGroups depth parts = .error .unopenedParenthesis) ∨
      (¬Overcloses depth parts ∧ parts.count .closing < depth + parts.count .opening ∧
        checkGroups depth parts = .error .unclosedParenthesis) ∨
      (¬Overcloses depth parts ∧ parts.count .closing = depth + parts.count .opening ∧
        checkGroups depth parts = .ok ()) := by
  induction parts generalizing depth with
  | nil =>
      right
      cases depth with
      | zero => exact .inr ⟨not_overcloses_nil, rfl, rfl⟩
      | succ depth => exact .inl ⟨not_overcloses_nil, by simp, rfl⟩
  | cons part rest ih =>
      cases part with
      | opening =>
          rw [overcloses_cons_iff (depth + 1) (by simp; omega), checkGroups]
          simpa [Nat.add_assoc, Nat.add_comm 1] using ih (depth + 1)
      | closing =>
          cases depth with
          | zero => exact .inl ⟨overcloses_zero_closing, rfl⟩
          | succ depth =>
              rw [overcloses_cons_iff depth (by simp; omega), checkGroups]
              simpa [Nat.add_right_comm] using ih depth
      | address | symbol | operator | bytes =>
          rw [overcloses_cons_iff depth (by simp), checkGroups]
          · simpa using ih depth
          all_goals simp

/-! ## The grammar -/

inductive Nonterminal where
  | expression
  | primary
  deriving DecidableEq, Repr

/-- The parts are derived from a nonterminal of the grammar. -/
inductive Derives : Nonterminal → List Part → Prop where
  | primary {parts : List Part} : Derives .primary parts → Derives .expression parts
  | binary {left right : List Part} (op : BinaryOp) :
      Derives .expression left → Derives .expression right →
      Derives .expression (left ++ .operator (.binary op) :: right)
  | address (value : Address) : Derives .primary [.address value]
  | symbol (ref : SymbolRef) : Derives .primary [.symbol ref]
  | unary {operand : List Part} (op : UnaryOp) :
      Derives .primary operand → Derives .primary (.operator (.unary op) :: operand)
  | group {inner : List Part} :
      Derives .expression inner → Derives .primary (.opening :: (inner ++ [.closing]))

/-- The grammar derives what has a tree. -/
theorem derives_of_reads {bound : Nat} {parts : List Part} {tree : Tree}
    (reads : Reads bound parts tree) :
    Derives .expression parts ∧ (bound = 0 → Derives .primary parts) := by
  induction reads with
  | address bound value => exact ⟨.primary (.address value), fun _ => .address value⟩
  | symbol bound ref => exact ⟨.primary (.symbol ref), fun _ => .symbol ref⟩
  | group bound _ ih => exact ⟨.primary (.group ih.1), fun _ => .group ih.1⟩
  | unary bound op _ ih =>
      have operand := ih.2 rfl
      exact ⟨.primary (.unary op operand), fun _ => .unary op operand⟩
  | binary below _ _ leftIH rightIH =>
      refine ⟨.binary _ leftIH.1 rightIH.1, ?_⟩
      intro zero
      omega

/-- What is found out about derived parts, the last of which is given: they can stand
wherever an operand may begin, an operand ends with them, and their parentheses match. -/
structure Scans (parts : List Part) (last : Part) : Prop where
  getLast : parts.getLast? = some last
  precedes : operandPrecedes (some last) = true
  noBytes : parts.any Part.isBytes = false
  adjoin : ∀ previous rest, operandMayFollow previous = true →
    (Adjoin previous (parts ++ rest) ↔ Adjoin (some last) rest)
  groups : ∀ depth rest, checkGroups depth (parts ++ rest) = checkGroups depth rest

namespace Scans

variable {left parts : List Part} {leftLast last : Part}

theorem operand {part : Part} (precedes : operandPrecedes (some part) = true)
    (fits : ∀ previous, operandMayFollow previous = true → part.Fits previous)
    (noBytes : part.isBytes = false)
    (groups : ∀ depth rest, checkGroups depth (part :: rest) = checkGroups depth rest) :
    Scans [part] part where
  getLast := rfl
  precedes := precedes
  noBytes := by simp [noBytes]
  adjoin previous rest follows := and_iff_right (fits previous follows)
  groups := groups

theorem binary (op : BinaryOp) (leftScans : Scans left leftLast) (scans : Scans parts last) :
    Scans (left ++ .operator (.binary op) :: parts) last where
  getLast := by simp [List.getLast?_append, List.getLast?_cons, scans.getLast]
  precedes := scans.precedes
  noBytes := by simp [leftScans.noBytes, scans.noBytes, Part.isBytes]
  adjoin previous rest follows := by
    have fits : (Part.operator (.binary op)).Fits (some leftLast) :=
      (operandPrecedes_iff _).1 leftScans.precedes
    rw [List.append_assoc, leftScans.adjoin _ _ follows, List.cons_append, Adjoin,
      scans.adjoin _ _ rfl]
    exact and_iff_right fits
  groups depth rest := by
    rw [List.append_assoc, leftScans.groups]
    exact scans.groups depth rest

theorem unary (op : UnaryOp) (scans : Scans parts last) :
    Scans (.operator (.unary op) :: parts) last where
  getLast := by simp [List.getLast?_cons, scans.getLast]
  precedes := scans.precedes
  noBytes := by simp [scans.noBytes, Part.isBytes]
  adjoin previous rest follows := by
    have fits : (Part.operator (.unary op)).Fits previous := (operandMayFollow_iff _).1 follows
    rw [List.cons_append, Adjoin, scans.adjoin _ _ rfl]
    exact and_iff_right fits
  groups depth rest := scans.groups depth rest

theorem group (scans : Scans parts last) :
    Scans (.opening :: (parts ++ [.closing])) .closing where
  getLast := by simp [List.getLast?_cons]
  precedes := rfl
  noBytes := by simp [scans.noBytes, Part.isBytes]
  adjoin previous rest follows := by
    have fits : Part.opening.Fits previous := (operandMayFollow_iff _).1 follows
    have closes : Part.closing.Fits (some last) := (operandPrecedes_iff _).1 scans.precedes
    rw [List.cons_append, Adjoin, List.append_assoc, scans.adjoin _ _ rfl]
    exact (and_iff_right fits).trans (and_iff_right closes)
  groups depth rest := by
    rw [List.cons_append, checkGroups, List.append_assoc, scans.groups]
    rfl

end Scans

theorem exists_scans_of_derives {nonterminal : Nonterminal} {parts : List Part}
    (derives : Derives nonterminal parts) : ∃ last, Scans parts last := by
  induction derives with
  | primary _ ih => exact ih
  | binary op _ _ leftIH rightIH =>
      obtain ⟨leftLast, leftScans⟩ := leftIH
      obtain ⟨last, scans⟩ := rightIH
      exact ⟨last, leftScans.binary op scans⟩
  | address value =>
      exact ⟨_, .operand rfl (fun _ => (operandMayFollow_iff _).1) rfl fun _ _ => rfl⟩
  | symbol ref =>
      exact ⟨_, .operand rfl (fun _ => (operandMayFollow_iff _).1) rfl fun _ _ => rfl⟩
  | unary op _ ih =>
      obtain ⟨last, scans⟩ := ih
      exact ⟨last, scans.unary op⟩
  | group _ ih =>
      obtain ⟨last, scans⟩ := ih
      exact ⟨.closing, scans.group⟩

/-- What the grammar derives can be put into postfix order. -/
theorem exists_orderParts_of_derives {parts : List Part}
    (derives : Derives .expression parts) : ∃ ordered, orderParts parts = .ok ordered := by
  obtain ⟨last, scans⟩ := exists_scans_of_derives derives
  have adjoin : Adjoin none parts := by
    have whole := (scans.adjoin none [] rfl).2 trivial
    rwa [List.append_nil] at whole
  have groups : checkGroups 0 parts = .ok () := by
    have whole := scans.groups 0 []
    rwa [List.append_nil] at whole
  obtain ⟨ordered, reordered⟩ := (exists_postfixOrder_eq_ok_iff parts).2 groups
  refine ⟨ordered, orderParts_eq_ok_iff.2 ⟨?_, reordered⟩⟩
  match parts with
  | [] => rfl
  | [part] =>
      have precedes := scans.precedes
      rw [← Option.some.inj scans.getLast] at precedes
      cases part with
      | address | symbol => rfl
      | operator | opening | bytes => cases precedes
      | closing => simp [Adjoin, Part.Fits] at adjoin
  | first :: second :: rest =>
      refine (checkParts_eq_ok_iff first second rest).2
        ⟨scans.noBytes, checkNeighbours_eq_ok_iff.2 adjoin, ?_⟩
      intro op equal
      have precedes := scans.precedes
      rw [Option.some.inj (scans.getLast.symm.trans equal)] at precedes
      cases precedes

/-! ## Errors -/

/-- There are at least two parts, and none of them is a string. -/
structure Plain (parts : List Part) : Prop where
  several : 2 ≤ parts.length
  noBytes : ∀ content literal, .bytes content literal ∉ parts

/-- The parts are refused with the error.  Every reason excludes those before it. -/
inductive Rejected : List Part → ExpressionError → Prop where
  | lone {part : Part} : part.isOperand = false → Rejected [part] (.loneToken part.text)
  | bytes {parts : List Part} {content : List UInt8} {literal : String} :
      2 ≤ parts.length → .bytes content literal ∈ parts → Rejected parts .bytesNotAlone
  | misplaced {before after : List Part} {part : Part} :
      Plain (before ++ part :: after) → Adjoin none before → ¬part.Fits before.getLast? →
      Rejected (before ++ part :: after)
        (.misplaced part.description
          (before.getLast?.elim "the start of the expression" Part.description)
          (before.length + 1))
  | dangling {parts : List Part} {op : Operator} :
      Plain parts → Adjoin none parts → parts.getLast? = some (.operator op) →
      Rejected parts (.danglingOperator op.name)
  | unopened {parts : List Part} :
      Plain parts → Adjoin none parts → (∀ op, parts.getLast? ≠ some (.operator op)) →
      Overcloses 0 parts → Rejected parts .unopenedParenthesis
  | unclosed {parts : List Part} :
      Plain parts → Adjoin none parts → (∀ op, parts.getLast? ≠ some (.operator op)) →
      ¬Overcloses 0 parts → parts.count .closing < parts.count .opening →
      Rejected parts .unclosedParenthesis

theorem checkEnd_eq_error_iff {parts : List Part} {error : ExpressionError} :
    checkEnd parts = .error error ↔
      ∃ op, parts.getLast? = some (.operator op) ∧ error = .danglingOperator op.name := by
  rw [checkEnd]
  split <;> simp_all [eq_comm]

/-- The checks of parts that are no strings, one after the other. -/
theorem Plain.orderParts_eq_error_iff {parts : List Part} (plain : Plain parts)
    {error : ExpressionError} :
    orderParts parts = .error error ↔
      checkNeighbours none 1 parts = .error error ∨
      checkNeighbours none 1 parts = .ok () ∧ checkEnd parts = .error error ∨
      checkNeighbours none 1 parts = .ok () ∧ checkEnd parts = .ok () ∧
        checkGroups 0 parts = .error error := by
  have noBytes : parts.any Part.isBytes = false := by
    rw [List.any_eq_false]
    intro part member
    cases part with
    | bytes content literal => exact absurd member (plain.noBytes content literal)
    | address | symbol | operator | opening | closing => simp [Part.isBytes]
  rw [← postfixOrder_eq_error_iff]
  have several := plain.several
  rcases parts with _ | ⟨first, _ | ⟨second, rest⟩⟩
  · simp at several
  · simp at several
  · rw [orderParts, checkParts]
    · simp only [noBytes]
      cases checkNeighbours none 1 (first :: second :: rest) with
      | error => simp
      | ok => cases checkEnd (first :: second :: rest) <;> simp
    all_goals simp

/-- Several parts have a string among them, or they are plain. -/
theorem bytes_mem_or_plain {parts : List Part} (several : 2 ≤ parts.length) :
    (∃ content literal, .bytes content literal ∈ parts) ∨ Plain parts := by
  by_cases member : ∃ content literal, .bytes content literal ∈ parts
  · exact .inl member
  · exact .inr ⟨several, fun content literal found => member ⟨content, literal, found⟩⟩

theorem orderParts_of_bytes_mem {parts : List Part} {content : List UInt8} {literal : String}
    (several : 2 ≤ parts.length) (member : .bytes content literal ∈ parts) :
    orderParts parts = .error .bytesNotAlone := by
  have someBytes : parts.any Part.isBytes = true := List.any_eq_true.2 ⟨_, member, rfl⟩
  match parts, several with
  | first :: second :: rest, _ =>
      rw [orderParts, checkParts]
      · simp [someBytes]
      all_goals simp

theorem Plain.rejected_of_orderParts {parts : List Part} {error : ExpressionError}
    (plain : Plain parts) (refused : orderParts parts = .error error) :
    Rejected parts error := by
  rcases plain.orderParts_eq_error_iff.1 refused with
    misplaced | ⟨neighbours, dangling⟩ | ⟨neighbours, last, groups⟩
  · obtain ⟨before, part, after, rfl, adjoin, misfit, rfl⟩ :=
      checkNeighbours_eq_error_iff.1 misplaced
    rw [Option.or_none] at misfit ⊢
    rw [Nat.add_comm]
    exact .misplaced plain adjoin misfit
  · obtain ⟨op, last, rfl⟩ := checkEnd_eq_error_iff.1 dangling
    exact .dangling plain (checkNeighbours_eq_ok_iff.1 neighbours) last
  · have adjoin := checkNeighbours_eq_ok_iff.1 neighbours
    have noOperator := checkEnd_eq_ok_iff.1 last
    rcases checkGroups_cases 0 parts with
      ⟨overcloses, outcome⟩ | ⟨covered, fewer, outcome⟩ | ⟨-, -, outcome⟩
    · rw [outcome] at groups
      cases groups
      exact .unopened plain adjoin noOperator overcloses
    · rw [outcome] at groups
      cases groups
      exact .unclosed plain adjoin noOperator covered (by simpa using fewer)
    · rw [outcome] at groups
      cases groups

theorem Plain.orderParts_of_checkGroups {parts : List Part} {error : ExpressionError}
    (plain : Plain parts) (adjoin : Adjoin none parts)
    (noOperator : ∀ op, parts.getLast? ≠ some (.operator op))
    (refused : checkGroups 0 parts = .error error) : orderParts parts = .error error :=
  plain.orderParts_eq_error_iff.2
    (.inr (.inr ⟨checkNeighbours_eq_ok_iff.2 adjoin, checkEnd_eq_ok_iff.2 noOperator, refused⟩))

theorem Rejected.orderParts_eq {parts : List Part} {error : ExpressionError}
    (rejected : Rejected parts error) : orderParts parts = .error error := by
  cases rejected with
  | lone notOperand => simp [orderParts, checkParts, notOperand]
  | bytes several member => exact orderParts_of_bytes_mem several member
  | misplaced plain adjoin misfit =>
      apply plain.orderParts_eq_error_iff.2
      left
      apply checkNeighbours_eq_error_iff.2
      refine ⟨_, _, _, rfl, adjoin, ?_, ?_⟩
      · rwa [Option.or_none]
      · rw [Option.or_none, Nat.add_comm]
  | dangling plain adjoin last =>
      apply plain.orderParts_eq_error_iff.2
      right
      left
      exact ⟨checkNeighbours_eq_ok_iff.2 adjoin, checkEnd_eq_error_iff.2 ⟨_, last, rfl⟩⟩
  | unopened plain adjoin noOperator overcloses =>
      apply plain.orderParts_of_checkGroups adjoin noOperator
      rcases checkGroups_cases 0 parts with ⟨-, outcome⟩ | ⟨covered, -⟩ | ⟨covered, -⟩
      · exact outcome
      · exact absurd overcloses covered
      · exact absurd overcloses covered
  | unclosed plain adjoin noOperator covered fewer =>
      apply plain.orderParts_of_checkGroups adjoin noOperator
      rcases checkGroups_cases 0 parts with
        ⟨overcloses, -⟩ | ⟨-, -, outcome⟩ | ⟨-, equal, -⟩
      · exact absurd overcloses covered
      · exact outcome
      · omega

/-- Parts are refused with an error exactly for the reason of that error. -/
theorem orderParts_eq_error_iff_rejected {parts : List Part} {error : ExpressionError} :
    orderParts parts = .error error ↔ Rejected parts error := by
  constructor
  · intro refused
    match parts with
    | [] => cases refused
    | [part] =>
        cases part with
        | address | symbol | bytes => cases refused
        | operator | opening | closing =>
            cases refused
            exact .lone rfl
    | first :: second :: rest =>
        have several : 2 ≤ (first :: second :: rest).length := by simp
        rcases bytes_mem_or_plain several with ⟨content, literal, member⟩ | plain
        · rw [orderParts_of_bytes_mem several member] at refused
          cases refused
          exact .bytes several member
        · exact plain.rejected_of_orderParts refused
  · exact Rejected.orderParts_eq

/-- Parts can be put into postfix order exactly when there are none, when they are one
operand, or when the grammar derives them. -/
theorem exists_orderParts_eq_ok_iff (parts : List Part) :
    (∃ ordered, orderParts parts = .ok ordered) ↔
      parts = [] ∨ (∃ part, parts = [part] ∧ part.isOperand = true) ∨
        Derives .expression parts := by
  constructor
  · rintro ⟨ordered, accepted⟩
    by_cases empty : parts = []
    · exact .inl empty
    by_cases string : ∃ content literal, parts = [.bytes content literal]
    · obtain ⟨content, literal, rfl⟩ := string
      exact .inr (.inl ⟨_, rfl, rfl⟩)
    · obtain ⟨tree, reads⟩ := exists_reads_of_orderParts accepted empty
        fun content literal single => string ⟨content, literal, single⟩
      exact .inr (.inr (derives_of_reads reads).1)
  · rintro (rfl | ⟨part, rfl, operand⟩ | derives)
    · exact ⟨[], rfl⟩
    · cases part with
      | address | symbol | bytes => exact ⟨_, rfl⟩
      | operator | opening | closing => cases operand
    · exact exists_orderParts_of_derives derives

/-! ## Expressions -/

theorem Expression.toPostfix_fst {expression : Expression}
    (unordered : expression.isPostfix = false) :
    expression.toPostfix.1 = (orderParts (simplifyParts expression.parts)).map fun _ => () := by
  simp only [toPostfix, unordered, Bool.false_eq_true, if_false]
  cases orderParts (simplifyParts expression.parts) <;> rfl

/-- An expression without `NUL` can be put into postfix order exactly when, with its short
strings as numbers, it has no parts, or one operand, or parts that the grammar derives.
Otherwise the error is the first reason that applies. -/
theorem Expression.toPostfix_fst_eq_iff {expression : Expression}
    (unordered : expression.isPostfix = false)
    (noNul : .operator (.unary .nul) ∉ expression.parts) :
    let parts := expression.parts.map absorbString
    (expression.toPostfix.1 = .ok () ↔
      parts = [] ∨ (∃ part, parts = [part] ∧ part.isOperand = true) ∨
        Derives .expression parts) ∧
      ∀ error, expression.toPostfix.1 = .error error ↔ Rejected parts error := by
  intro parts
  rw [toPostfix_fst unordered, simplifyParts_of_noNul noNul]
  constructor
  · rw [← exists_orderParts_eq_ok_iff, Except.map_eq_ok_iff]
    simp [parts]
  · intro error
    rw [Except.map_eq_error_iff]
    exact orderParts_eq_error_iff_rejected

/-- In `A + ( ) ) *` the first parenthesis that closes does not fit the one that opens,
which counts before the other one and the operator at the end. -/
theorem toPostfix_fst_eq_of_empty_group :
    let ref : SymbolRef := { name := "A", external := false, root := false }
    let parts : List Part :=
      [.symbol ref, .operator (.binary .plus), .opening, .closing, .closing,
        .operator (.binary .times)]
    let expression : Expression :=
      { source := "A + ( ) ) *", parts, isByte := false, isPostfix := false }
    expression.toPostfix.1 = .error (.misplaced ")" "(" 4) ∧ ¬Derives .expression parts := by
  intro ref parts expression
  have noNul : .operator (.unary .nul) ∉ expression.parts := by decide
  obtain ⟨accepted, refused⟩ := @Expression.toPostfix_fst_eq_iff expression rfl noNul
  have plain : Plain parts := by
    refine ⟨by decide, ?_⟩
    intro content literal member
    simp [parts] at member
  have adjoin : Adjoin none [.symbol ref, .operator (.binary .plus), .opening] := by
    simp [Adjoin, Part.Fits]
  have misfit : ¬Part.closing.Fits (some .opening) := by simp [Part.Fits]
  have outcome := (refused _).2 (.misplaced plain adjoin misfit)
  refine ⟨outcome, ?_⟩
  intro derives
  have contrary := accepted.2 (.inr (.inr derives))
  rw [outcome] at contrary
  cases contrary

end RelocExpr
