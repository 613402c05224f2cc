import RelocExpr.Proofs.Defects
import RelocExpr.Proofs.LetterCase

/-!
# Expressions in upper case

The names in an expression can be put in upper case before or after its parts are put
into postfix order, and its value and its link items do not change.  So two texts that
differ in the case of letters alone mean the same.
-/

namespace RelocExpr

/-! ## Simplification -/

theorem absorbString_upper (part : Part) : absorbString part.upper = (absorbString part).upper := by
  cases part with
  | bytes content literal =>
      change absorbString (.bytes content literal) = _
      rw [absorbString]
      cases shortString? content <;> rfl
  | _ => rfl

theorem Part.upper_eq_operator_iff {part : Part} {operator : Operator} :
    part.upper = .operator operator ↔ part = .operator operator := by
  cases part <;> simp [Part.upper]

theorem simplifyParts_map_upper (parts : List Part) :
    simplifyParts (parts.map Part.upper) = (simplifyParts parts).map Part.upper := by
  rw [simplifyParts, simplifyParts, collapseNul_map fun _ => Part.upper_eq_operator_iff,
    List.map_map, List.map_map]
  exact List.map_congr_left fun part _ => absorbString_upper part

/-! ## Neighbours -/

theorem Part.mayFollow_upper (part : Part) (previous : Option Part) :
    part.upper.mayFollow (previous.map Part.upper) = part.mayFollow previous := by
  have operand : operandMayFollow (previous.map Part.upper) = operandMayFollow previous := by
    rcases previous with _ | _ | _ | _ | _ | _ | _ <;> rfl
  have precedes : operandPrecedes (previous.map Part.upper) = operandPrecedes previous := by
    rcases previous with _ | _ | _ | _ | _ | _ | _ <;> rfl
  rcases part with _ | _ | ⟨_ | _⟩ | _ | _ | _ <;> simp [mayFollow, upper, operand, precedes]

theorem Part.upper_description (part : Part) :
    Text.upper part.upper.description = Text.upper part.description := by
  cases part with
  | symbol ref => simp [Part.upper, description, SymbolRef.upper, Text.upper_append]
  | _ => rfl

theorem Part.upper_text (part : Part) : Text.upper part.upper.text = Text.upper part.text := by
  cases part with
  | symbol ref => simp [Part.upper, text, SymbolRef.upper, SymbolRef.text, Text.upper_append]
  | _ => rfl

/-- A part that does not fit is refused at the same place. -/
theorem checkNeighbours_map_upper (previous : Option Part) (position : Nat) (parts : List Part) :
    (checkNeighbours (previous.map Part.upper) position (parts.map Part.upper)).mapError
        ExpressionError.upper =
      (checkNeighbours previous position parts).mapError ExpressionError.upper := by
  induction parts generalizing previous position with
  | nil => rfl
  | cons part rest ih =>
      rw [List.map_cons, checkNeighbours, checkNeighbours, part.mayFollow_upper]
      split
      · exact ih (some part) (position + 1)
      · cases previous with
        | none => simp [Except.mapError, ExpressionError.upper, part.upper_description]
        | some previous =>
            simp [Except.mapError, ExpressionError.upper, part.upper_description,
              previous.upper_description]

theorem checkEnd_map_upper (parts : List Part) :
    checkEnd (parts.map Part.upper) = checkEnd parts := by
  rw [checkEnd, checkEnd, List.getLast?_map]
  rcases parts.getLast? with _ | _ | _ | _ | _ | _ | _ <;> rfl

@[simp] theorem Part.isOperand_upper (part : Part) : part.upper.isOperand = part.isOperand := by
  cases part <;> rfl

@[simp] theorem Part.isBytes_upper (part : Part) : part.upper.isBytes = part.isBytes := by
  cases part <;> rfl

theorem checkParts_map_upper (parts : List Part) :
    (checkParts (parts.map Part.upper)).mapError ExpressionError.upper =
      (checkParts parts).mapError ExpressionError.upper := by
  match parts with
  | [] => rfl
  | [part] =>
      simp only [List.map_cons, List.map_nil, checkParts, Part.isOperand_upper]
      split
      · rfl
      · simp [Except.mapError, ExpressionError.upper, part.upper_text]
  | first :: second :: rest =>
      have bytes : ((first :: second :: rest).map Part.upper).any Part.isBytes =
          (first :: second :: rest).any Part.isBytes := by
        simp [Function.comp_def]
      have neighbours := checkNeighbours_map_upper none 1 (first :: second :: rest)
      have last := checkEnd_map_upper (first :: second :: rest)
      simp only [List.map_cons, Option.map_none] at bytes neighbours last ⊢
      rw [checkParts, checkParts, bytes, last]
      · split
        · rfl
        · revert neighbours
          cases checkNeighbours none 1 (first.upper :: second.upper :: rest.map Part.upper) <;>
            cases checkNeighbours none 1 (first :: second :: rest) <;>
            simp [Except.mapError]
      all_goals simp

/-! ## Reordering -/

theorem BinaryOp.release_map_upper (op : BinaryOp) (stack : List Waiting) :
    (op.release stack).1.map Part.upper = (op.release stack).1 := by
  fun_induction op.release stack with
  | case1 waiting rest released released' kept found ih =>
      rw [found] at ih
      exact congrArg (_ :: ·) ih
  | case2 => rfl
  | case3 => rfl

theorem map_upper_of_closeGroup? {stack kept : List Waiting} {released : List Part}
    (found : closeGroup? stack = some (released, kept)) : released.map Part.upper = released := by
  fun_induction closeGroup? stack generalizing released with
  | case1 waiting rest ih =>
      obtain ⟨⟨inner, below⟩, foundInner, equal⟩ := Option.map_eq_some_iff.1 found
      obtain ⟨rfl, rfl⟩ := Prod.mk.inj equal
      exact congrArg (_ :: ·) (ih foundInner)
  | case2 =>
      obtain ⟨rfl, -⟩ := Prod.mk.inj (Option.some.inj found)
      rfl
  | case3 => contradiction

theorem releaseAll_map_upper (stack : List Waiting) :
    (releaseAll stack).map (List.map Part.upper) = releaseAll stack := by
  fun_induction releaseAll stack with
  | case1 => rfl
  | case2 => rfl
  | case3 waiting rest ih =>
      revert ih
      cases releaseAll rest with
      | error => exact fun _ => rfl
      | ok released =>
          intro ih
          exact congrArg (Except.ok <| _ :: ·) (Except.ok.inj ih)

/-- Parts that come before the rest stay before it. -/
private theorem map_upper_append {released : List Part} (kept : released.map Part.upper = released)
    (result : Except ExpressionError (List Part)) :
    (result.map (List.map Part.upper)).map (released ++ ·) =
      (result.map (released ++ ·)).map (List.map Part.upper) := by
  cases result with
  | error => rfl
  | ok => simp [Except.map, kept]

theorem postfixOrder_map_upper (parts : List Part) (stack : List Waiting) :
    postfixOrder (parts.map Part.upper) stack =
      (postfixOrder parts stack).map (List.map Part.upper) := by
  induction parts generalizing stack with
  | nil => exact (releaseAll_map_upper stack).symm
  | cons part rest ih =>
      have operand (part : Part) : ((postfixOrder rest stack).map (List.map Part.upper)).map
          (part.upper :: ·) =
            ((postfixOrder rest stack).map (part :: ·)).map (List.map Part.upper) := by
        cases postfixOrder rest stack <;> rfl
      cases part with
      | opening => exact ih _
      | closing =>
          simp only [List.map_cons, Part.upper, postfixOrder]
          split
          · rfl
          · next released kept found =>
              rw [ih]
              exact map_upper_append (map_upper_of_closeGroup? found) _
      | operator op =>
          cases op with
          | unary op => exact ih _
          | binary op =>
              simp only [List.map_cons, Part.upper, postfixOrder]
              rw [ih]
              exact map_upper_append (op.release_map_upper stack) _
      | address value => exact (congrArg _ (ih stack)).trans (operand (.address value))
      | symbol ref => exact (congrArg _ (ih stack)).trans (operand (.symbol ref))
      | bytes content literal =>
          exact (congrArg _ (ih stack)).trans (operand (.bytes content literal))

theorem orderParts_map_upper (parts : List Part) :
    (orderParts (parts.map Part.upper)).mapError ExpressionError.upper =
      ((orderParts parts).mapError ExpressionError.upper).map (List.map Part.upper) := by
  have checked := checkParts_map_upper parts
  rw [orderParts, orderParts, postfixOrder_map_upper]
  cases others : checkParts (parts.map Part.upper) with
  | error error =>
      rw [others] at checked
      obtain ⟨cause, found, same⟩ := Except.mapError_eq_error_iff.1 checked.symm
      rw [found]
      exact congrArg Except.error same.symm
  | ok =>
      rw [others] at checked
      rw [Except.mapError_eq_ok_iff.1 checked.symm]
      cases postfixOrder parts [] <;> rfl

/-- To put an expression in upper case into postfix order gives that order in upper case. -/
theorem Expression.toPostfix_upper (expression : Expression) :
    expression.upper.toPostfix.1.mapError ExpressionError.upper =
        expression.toPostfix.1.mapError ExpressionError.upper ∧
      expression.upper.toPostfix.2 = expression.toPostfix.2.upper := by
  rcases expression with ⟨source, parts, isByte, isPostfix⟩
  cases isPostfix with
  | true => exact ⟨rfl, rfl⟩
  | false =>
      have ordered := orderParts_map_upper (simplifyParts parts)
      simp only [toPostfix, upper, Bool.false_eq_true, if_false, simplifyParts_map_upper]
      cases others : orderParts ((simplifyParts parts).map Part.upper) with
      | error error =>
          rw [others] at ordered
          obtain ⟨cause, found, same⟩ :=
            Except.mapError_eq_error_iff.1 (Except.map_eq_error_iff.1 ordered.symm)
          rw [found]
          exact ⟨congrArg Except.error same.symm, rfl⟩
      | ok upperParts =>
          rw [others] at ordered
          obtain ⟨ordered, found, same⟩ := Except.map_eq_ok_iff.1 ordered.symm
          rw [Except.mapError_eq_ok_iff.1 found]
          exact ⟨rfl, by rw [same]⟩

/-! ## Symbols -/

namespace SymbolTable

variable (table : SymbolTable) (ref : SymbolRef)

@[simp] theorem qualifiedName_upper : table.qualifiedName ref.upper = table.qualifiedName ref := by
  simp [qualifiedName, SymbolRef.upper]

@[simp] theorem mention_upper : table.mention ref.upper = table.mention ref := by
  rw [mention, mention, qualifiedName_upper]
  rfl

@[simp] theorem valueOf_upper : table.valueOf ref.upper = table.valueOf ref := by
  rw [valueOf, valueOf, qualifiedName_upper]

@[simp] theorem find?_upper (mode : EvaluationMode) :
    table.find? mode ref.upper = table.find? mode ref := by
  cases mode with
  | lookahead => rfl
  | strict => simp only [find?, mention_upper, valueOf_upper]
  | bestEffort => simp only [find?, mention_upper, valueOf_upper]

theorem mentionAll_map_upper (refs : List SymbolRef) :
    table.mentionAll (refs.map SymbolRef.upper) = table.mentionAll refs := by
  rw [mentionAll, mentionAll, List.foldl_map]
  simp only [mention_upper]

end SymbolTable

/-! ## Evaluation -/

/-- The fault of an expression in upper case, whose text only a defect shows. -/
def Fault.upper : Fault → Fault
  | .defect (.evaluatedUnordered source) => .defect (.evaluatedUnordered (Text.upper source))
  | .defect (.linkedUnordered source) => .defect (.linkedUnordered (Text.upper source))
  | .defect (.missingOperand source) => .defect (.missingOperand (Text.upper source))
  | .defect (.leftoverValues source count) =>
      .defect (.leftoverValues (Text.upper source) count)
  | fault => fault

section

variable (expression : Expression) (mode : EvaluationMode) (table : SymbolTable)

/-- The symbol before `TYPE` is looked up. -/
theorem foldTypes_type_symbol (ref : SymbolRef) (before rest : List Part) :
    foldTypes mode (.symbol ref :: before) (.operator (.unary .type) :: rest) table =
      match table.find? mode ref with
      | (none, mentioned) => (none, mentioned)
      | (some value, mentioned) =>
          foldTypes mode (.number value.typeTag :: before) rest mentioned :=
  rfl

theorem foldTypes_map_upper (done parts : List Part) :
    foldTypes mode (done.map Part.upper) (parts.map Part.upper) table =
      ((foldTypes mode done parts table).1.map (List.map Part.upper),
        (foldTypes mode done parts table).2) := by
  induction parts generalizing done table with
  | nil => exact Prod.ext (congrArg some List.map_reverse.symm) rfl
  | cons part rest ih =>
      by_cases isType : part = .operator (.unary .type)
      · subst isType
        cases done with
        | nil => exact ih table [.operator (.unary .type)]
        | cons last before =>
            cases last with
            | address address => exact ih table (.number address.segment.typeTag :: before)
            | symbol ref =>
                rw [foldTypes_type_symbol]
                change foldTypes mode (.symbol ref.upper :: _) (.operator (.unary .type) :: _)
                  table = _
                rw [foldTypes_type_symbol, SymbolTable.find?_upper]
                rcases table.find? mode ref with ⟨_ | value, mentioned⟩
                · rfl
                · exact ih mentioned (.number value.typeTag :: before)
            | _ => exact ih table (.operator (.unary .type) :: _ :: before)
      · rw [List.map_cons, Tree.foldTypes_of_ne isType,
          Tree.foldTypes_of_ne (mt Part.upper_eq_operator_iff.1 isType)]
        exact ih table (part :: done)

theorem applyOperator_upper (operator : Operator) (stack : List Address) :
    applyOperator expression.upper operator stack =
      (applyOperator expression operator stack).mapError Fault.upper := by
  match operator, stack with
  | .unary op, operand :: below =>
      simp only [applyOperator, Expression.upper]
      cases pushResult expression.isByte (.unary op) [operand] (op.apply operand) below <;> rfl
  | .binary op, right :: left :: below =>
      simp only [applyOperator, Expression.upper]
      cases op.apply left right with
      | error => rfl
      | ok result =>
          dsimp only
          cases pushResult expression.isByte (.binary op) [left, right] result below <;> rfl
  | .unary _, [] => rfl
  | .binary _, [] => rfl
  | .binary _, [_] => rfl

theorem runParts_upper (parts : List Part) (stack : List Address) (external : Bool) :
    runParts expression.upper mode (parts.map Part.upper) stack external table =
      ((runParts expression mode parts stack external table).1.mapError Fault.upper,
        (runParts expression mode parts stack external table).2) := by
  induction parts generalizing stack external table with
  | nil =>
      match stack with
      | [_] => rfl
      | [] => rfl
      | _ :: _ :: _ => rfl
  | cons part rest ih =>
      cases part with
      | address address => exact ih table _ external
      | symbol ref =>
          simp only [List.map_cons, Part.upper, runParts, SymbolTable.find?_upper,
            SymbolTable.qualifiedName_upper]
          rcases table.find? mode ref with ⟨_ | _ | _ | _, mentioned⟩
          · rfl
          · exact ih mentioned _ external
          · rfl
          · exact ih mentioned _ true
      | operator op =>
          simp only [List.map_cons, Part.upper, runParts, applyOperator_upper]
          rcases applyOperator expression op stack with _ | _ | stack
          · rfl
          · rfl
          · exact ih table stack external
      | opening => rfl
      | closing => rfl
      | bytes => rfl

theorem Expression.symbolRefs_upper :
    expression.upper.symbolRefs = expression.symbolRefs.map SymbolRef.upper := by
  rw [symbolRefs, symbolRefs, upper, List.filterMap_map, List.map_filterMap]
  congr 1
  funext part
  cases part <;> rfl

theorem Expression.hasSymbols_upper : expression.upper.hasSymbols = expression.hasSymbols := by
  rw [hasSymbols, hasSymbols, symbolRefs_upper, List.isEmpty_map]

theorem Expression.run_upper :
    expression.upper.run mode table =
      ((expression.run mode table).1.mapError Fault.upper, (expression.run mode table).2) := by
  have folded : foldTypes mode [] (expression.parts.map Part.upper) table = _ :=
    foldTypes_map_upper mode table [] expression.parts
  have running := runParts_upper expression mode
  rcases expression with ⟨source, parts, isByte, isPostfix⟩
  cases isPostfix with
  | false => rfl
  | true =>
      cases parts with
      | nil => rfl
      | cons first rest =>
          simp only [run, upper, Bool.not_true, Bool.false_eq_true, if_false,
            List.isEmpty_map, List.isEmpty_cons, folded]
          rcases foldTypes mode [] (first :: rest) table with ⟨_ | parts, mentioned⟩
          · rfl
          · exact running mentioned parts [] false

theorem Expression.evaluate_upper :
    expression.upper.evaluate mode table =
      ((expression.evaluate mode table).1.mapError Fault.upper,
        (expression.evaluate mode table).2) := by
  cases mode with
  | strict =>
      rw [evaluate, symbolRefs_upper, SymbolTable.mentionAll_map_upper]
      exact expression.run_upper .strict _
  | bestEffort => exact expression.run_upper .bestEffort table
  | lookahead =>
      cases symbols : expression.hasSymbols with
      | true => simp [evaluate, hasSymbols_upper, symbols, Except.mapError]
      | false =>
          simp only [evaluate, hasSymbols_upper, symbols, Bool.false_eq_true, if_false]
          exact expression.run_upper .lookahead table

/-! ## Link items -/

theorem linkOperator_upper (source : String) (operator : Operator) (stack : List LinkOperand) :
    linkOperator (Text.upper source) operator stack =
      (linkOperator source operator stack).mapError Fault.upper := by
  match operator, stack with
  | .unary op, operand :: below =>
      cases op with
      | plus => rfl
      | _ =>
          simp only [linkOperator]
          split <;> rfl
  | .unary op, [] => cases op <;> rfl
  | .binary op, right :: left :: below => rfl
  | .binary _, [] => rfl
  | .binary _, [_] => rfl

theorem linkParts_upper (source : String) (parts : List Part) (stack : List LinkOperand) :
    linkParts (Text.upper source) (parts.map Part.upper) stack table =
      ((linkParts source parts stack table).1.mapError Fault.upper,
        (linkParts source parts stack table).2) := by
  induction parts generalizing stack table with
  | nil => rfl
  | cons part rest ih =>
      cases part with
      | address address => exact ih table _
      | symbol ref =>
          simp only [List.map_cons, Part.upper, linkParts, SymbolTable.find?_upper,
            SymbolTable.qualifiedName_upper]
          rcases table.find? .strict ref with ⟨_ | _ | _ | _, mentioned⟩
          · rfl
          · exact ih mentioned _
          · rfl
          · exact ih mentioned _
      | operator op =>
          simp only [List.map_cons, Part.upper, linkParts, linkOperator_upper]
          rcases linkOperator source op stack with _ | stack
          · rfl
          · exact ih table stack
      | opening => rfl
      | closing => rfl
      | bytes => rfl

theorem Expression.linkItems_upper :
    expression.upper.linkItems table =
      ((expression.linkItems table).1.mapError Fault.upper, (expression.linkItems table).2) := by
  have folded : foldTypes .strict [] (expression.parts.map Part.upper) table = _ :=
    foldTypes_map_upper .strict table [] expression.parts
  rcases expression with ⟨source, parts, isByte, isPostfix⟩
  cases isPostfix with
  | false => rfl
  | true =>
      simp only [linkItems, upper, Bool.not_true, Bool.false_eq_true, if_false, folded]
      rcases foldTypes .strict [] parts table with ⟨_ | parts, mentioned⟩
      · rfl
      simp only [Option.map_some, linkParts_upper]
      rcases linkParts source parts [] mentioned with ⟨_ | stack, mentioned⟩
      · rfl
      · rcases stack with _ | ⟨_, _ | _⟩ <;> rfl

end

/-! ## Two texts -/

/-- Only a defect shows the text of its expression. -/
theorem mapError_upper_of_ne_defect {α : Type} {result : Except Fault α}
    (noDefect : ∀ defect, result ≠ .error (.defect defect)) :
    result.mapError Fault.upper = result := by
  match result with
  | .ok _ => rfl
  | .error (.error _) => rfl
  | .error (.defect defect) => exact absurd rfl (noDefect defect)

namespace Expression.Ordered

variable {expression : Expression}

theorem evaluate_upper_eq (ordered : expression.Ordered) (mode : EvaluationMode)
    (table : SymbolTable) : expression.upper.evaluate mode table = expression.evaluate mode table := by
  rw [evaluate_upper,
    mapError_upper_of_ne_defect fun _ => ordered.evaluate_ne_defect mode table]

theorem linkItems_upper_eq (ordered : expression.Ordered) (table : SymbolTable) :
    expression.upper.linkItems table = expression.linkItems table := by
  rw [linkItems_upper, mapError_upper_of_ne_defect fun _ => ordered.linkItems_ne_defect table]

end Expression.Ordered

theorem ExpressionError.column?_upper (error : ExpressionError) :
    error.upper.column? = error.column? := by
  cases error <;> rfl

/-- Two results that are both values, which are related, or both errors of one kind at one
place, which quote texts that differ in letter case alone. -/
inductive SameButCase {α : Type} (related : α → α → Prop) :
    (result other : Except ExpressionError α) → Prop
  | ok {value other : α} : related value other → SameButCase related (.ok value) (.ok other)
  | error {error other : ExpressionError} :
      error.upper = other.upper → error.column? = other.column? →
      SameButCase related (.error error) (.error other)

theorem SameButCase.of_mapError_upper {α β : Type} {related : α → α → Prop} {image : α → β}
    {result other : Except ExpressionError α}
    (same : (result.mapError ExpressionError.upper).map image =
      (other.mapError ExpressionError.upper).map image)
    (values : ∀ value otherValue, result = .ok value → other = .ok otherValue →
      image value = image otherValue → related value otherValue) :
    SameButCase related result other := by
  match result, other with
  | .ok value, .ok otherValue => exact .ok (values _ _ rfl rfl (Except.ok.inj same))
  | .error cause, .error otherCause =>
      have upper : cause.upper = otherCause.upper := Except.error.inj same
      refine .error upper ?_
      rw [← cause.column?_upper, upper, otherCause.column?_upper]

/-- Two expressions that are put into postfix order with the same outcome, and then have the
same values and the same link items and leave the same tables. -/
def Expression.MeansSame (expression other : Expression) : Prop :=
  SameButCase
    (fun _ _ =>
      (∀ mode table,
        expression.toPostfix.2.evaluate mode table = other.toPostfix.2.evaluate mode table) ∧
      ∀ table, expression.toPostfix.2.linkItems table = other.toPostfix.2.linkItems table)
    expression.toPostfix.1 other.toPostfix.1

/-- Texts without quotes that differ in the case of letters alone are read with the same
outcome and mean the same. -/
theorem Expression.sameButCase_of_upper_eq {text other : String}
    (same : Text.upper text = Text.upper other) (unquoted : Lexeme.Unquoted text.toList)
    (unquotedOther : Lexeme.Unquoted other.toList) (reading : Reading) (isByte : Bool) :
    SameButCase MeansSame (read reading isByte text) (read reading isByte other) := by
  have sameRead := read_upper unquoted reading isByte
  rw [same, read_upper unquotedOther] at sameRead
  apply SameButCase.of_mapError_upper sameRead.symm
  intro expression otherExpression found foundOther upper
  have ordered := expression.toPostfix_upper
  have orderedOther := otherExpression.toPostfix_upper
  rw [← upper] at orderedOther
  have sameOutcome := ordered.1.symm.trans orderedOther.1
  have sameParts := ordered.2.symm.trans orderedOther.2
  have sound {expression : Expression} {text : String}
      (found : read reading isByte text = .ok expression)
      (accepted : expression.toPostfix.1 = .ok ()) : expression.toPostfix.2.Ordered :=
    .toPostfix (isPostfix_of_read found) (Prod.ext accepted rfl)
  apply SameButCase.of_mapError_upper (congrArg (Except.map id) sameOutcome)
  intro _ _ accepted acceptedOther _
  constructor
  · intro mode table
    rw [← (sound found accepted).evaluate_upper_eq, sameParts,
      (sound foundOther acceptedOther).evaluate_upper_eq]
  · intro table
    rw [← (sound found accepted).linkItems_upper_eq, sameParts,
      (sound foundOther acceptedOther).linkItems_upper_eq]

/-- One symbol in three spellings, a keyword and the digits and the suffix of a number. -/
theorem sameButCase_of_mixed_letters :
    let text := "Foo aND fOO - 0fFh"
    let other := "foo And FOO - 0FfH"
    Text.upper text = Text.upper other ∧ Lexeme.Unquoted text.toList ∧
      Lexeme.Unquoted other.toList ∧
      SameButCase Expression.MeansSame (Expression.read {} false text)
        (Expression.read {} false other) := by
  intro text other
  have same : Text.upper text = Text.upper other := by decide +kernel
  have unquoted : Lexeme.Unquoted text.toList := ⟨by decide +kernel, by decide +kernel⟩
  have unquotedOther : Lexeme.Unquoted other.toList := ⟨by decide +kernel, by decide +kernel⟩
  exact ⟨same, unquoted, unquotedOther,
    Expression.sameButCase_of_upper_eq same unquoted unquotedOther {} false⟩

end RelocExpr
