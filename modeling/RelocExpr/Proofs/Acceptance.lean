import RelocExpr.Except
import RelocExpr.Proofs.Grammar

/-!
# Which parts are an expression

Parts are put into postfix order when each of them fits the one before it, the
last one is no operator and the parentheses match.  Such parts have a tree, which
is built up from left to right: what has been read either is an expression or
awaits an operand, and so does what stands before each open parenthesis.
-/

namespace RelocExpr

/-! ## Parentheses -/

/-- The parentheses of some parts match, together with those that are open. -/
def checkGroups (depth : Nat) : List Part → Except ExpressionError Unit
  | [] => if depth = 0 then .ok () else .error .unclosedParenthesis
  | .opening :: rest => checkGroups (depth + 1) rest
  | .closing :: rest =>
      match depth with
      | 0 => .error .unopenedParenthesis
      | depth + 1 => checkGroups depth rest
  | _ :: rest => checkGroups depth rest

/-- Number of parentheses that wait to be closed. -/
def openings (stack : List Waiting) : Nat :=
  stack.count .opening

@[simp] theorem openings_nil : openings [] = 0 := rfl

@[simp] theorem openings_opening (stack : List Waiting) :
    openings (.opening :: stack) = openings stack + 1 := by
  simp [openings]

@[simp] theorem openings_operator (operator : Operator) (stack : List Waiting) :
    openings (.operator operator :: stack) = openings stack := by
  simp [openings]

@[simp] theorem openings_release (op : BinaryOp) (stack : List Waiting) :
    openings (op.release stack).2 = openings stack := by
  induction stack with
  | nil => rfl
  | cons waiting rest ih =>
      cases waiting with
      | opening => rfl
      | operator operator =>
          rw [BinaryOp.release]
          split
          · simpa using ih
          · rfl

theorem closeGroup?_eq_none_iff (stack : List Waiting) :
    closeGroup? stack = none ↔ openings stack = 0 := by
  induction stack with
  | nil => simp [closeGroup?]
  | cons waiting rest ih => cases waiting <;> simp [closeGroup?, ih]

theorem openings_of_closeGroup? {stack kept : List Waiting} {released : List Part}
    (closed : closeGroup? stack = some (released, kept)) :
    openings stack = openings kept + 1 := by
  induction stack generalizing released with
  | nil => simp [closeGroup?] at closed
  | cons waiting rest ih =>
      cases waiting with
      | opening =>
          simp only [closeGroup?, Option.some.injEq, Prod.mk.injEq] at closed
          rw [openings_opening, closed.2]
      | operator operator =>
          simp only [closeGroup?, Option.map_eq_some_iff, Prod.mk.injEq] at closed
          rcases closed with ⟨⟨later, other⟩, found, -, rfl⟩
          rw [openings_operator, ih found]

/-- The outcome of a result without its value. -/
private def outcome {α : Type} (result : Except ExpressionError α) :
    Except ExpressionError Unit :=
  result.map fun _ => ()

private theorem outcome_map {α β : Type} (f : α → β)
    (result : Except ExpressionError α) : outcome (result.map f) = outcome result := by
  cases result <;> rfl

private theorem outcome_releaseAll (stack : List Waiting) :
    outcome (releaseAll stack) = checkGroups (openings stack) [] := by
  induction stack with
  | nil => rfl
  | cons waiting rest ih =>
      cases waiting with
      | opening =>
          rw [openings_opening]
          rfl
      | operator operator => rw [releaseAll, outcome_map, ih, openings_operator]

/-- Whether reordering fails, and how, depends on the parentheses only. -/
private theorem outcome_postfixOrder (parts : List Part) (stack : List Waiting) :
    outcome (postfixOrder parts stack) = checkGroups (openings stack) parts := by
  induction parts generalizing stack with
  | nil => exact outcome_releaseAll stack
  | cons part rest ih =>
      cases part with
      | opening => simp [postfixOrder, checkGroups, ih]
      | closing =>
          cases closed : closeGroup? stack with
          | none =>
              have zero := (closeGroup?_eq_none_iff stack).1 closed
              simp [postfixOrder, checkGroups, closed, zero, outcome, Except.map]
          | some groups =>
              rcases groups with ⟨released, kept⟩
              simp [postfixOrder, checkGroups, closed, outcome_map, ih,
                openings_of_closeGroup? closed]
      | operator operator =>
          cases operator with
          | unary op => simp [postfixOrder, checkGroups, ih]
          | binary op => simp [postfixOrder, checkGroups, outcome_map, ih]
      | address | symbol | bytes =>
          simp [postfixOrder, checkGroups, outcome_map, ih]

/-- Reordering fails as the check of the parentheses does. -/
theorem postfixOrder_eq_error_iff (parts : List Part) (error : ExpressionError) :
    postfixOrder parts [] = .error error ↔ checkGroups 0 parts = .error error := by
  rw [← openings_nil, ← outcome_postfixOrder, outcome, Except.map_eq_error_iff]

/-- Parts can be reordered exactly when their parentheses match. -/
theorem exists_postfixOrder_eq_ok_iff (parts : List Part) :
    (∃ ordered, postfixOrder parts [] = .ok ordered) ↔ checkGroups 0 parts = .ok () := by
  rw [← openings_nil, ← outcome_postfixOrder, outcome, Except.map_eq_ok_iff]
  simp

/-! ## From left to right -/

/-- With an operand after them the parts are an expression. -/
def Awaits (parts : List Part) : Prop :=
  ∀ operand tree, Reads 0 operand tree →
    ∃ whole, Reads loosest (parts ++ operand) whole

namespace Awaits

variable {parts : List Part} {tree : Tree}

theorem nil : Awaits [] := by
  intro operand tree reads
  exact ⟨tree, reads.mono (Nat.zero_le _)⟩

theorem append_unary (awaits : Awaits parts) (op : UnaryOp) :
    Awaits (parts ++ [.operator (.unary op)]) := by
  intro operand tree reads
  rw [List.append_assoc, List.singleton_append]
  exact awaits _ _ (.unary 0 op reads)

theorem append_binary (reads : Reads loosest parts tree) (op : BinaryOp) :
    Awaits (parts ++ [.operator (.binary op)]) := by
  intro operand operandTree operandReads
  rw [List.append_assoc, List.singleton_append]
  exact reads.append_binary op.precedence_lt_loosest operandReads

end Awaits

/-- Parts with some parentheses open, given what stands before each of them, with
the last one first, and after all of them. -/
def assemble : (outer : List (List Part)) → (current : List Part) → List Part
  | [], current => current
  | context :: outer, current => assemble outer (context ++ .opening :: current)

theorem assemble_append (outer : List (List Part)) (current more : List Part) :
    assemble outer (current ++ more) = assemble outer current ++ more := by
  induction outer generalizing current with
  | nil => rfl
  | cons context outer ih =>
      rw [assemble, assemble, ← ih, List.append_assoc, List.cons_append]

/-- What is known of the parts up to some place, given the last one of them: each
open parenthesis stands where an operand is awaited, and behind them there is an
expression unless an operand is awaited there too. -/
structure Scanned (previous : Option Part) (outer : List (List Part))
    (current : List Part) : Prop where
  contexts : ∀ context ∈ outer, Awaits context
  awaits : operandMayFollow previous = true → Awaits current
  complete : operandMayFollow previous = false → ∃ tree, Reads loosest current tree
  opened : previous = some .opening → outer ≠ []

namespace Scanned

variable {previous : Option Part} {outer : List (List Part)} {current : List Part}

theorem start : Scanned none [] [] where
  contexts := by simp
  awaits _ := .nil
  complete follows := by simp [operandMayFollow] at follows
  opened equal := by simp at equal

theorem complete_of_precedes (scanned : Scanned previous outer current)
    (precedes : operandPrecedes previous = true) :
    ∃ tree, Reads loosest current tree := by
  apply scanned.complete
  match previous, precedes with
  | some (.address _), _ | some (.symbol _), _ | some .closing, _ => rfl

/-- An address or a symbol ends an operand. -/
theorem operand (scanned : Scanned previous outer current) {part : Part} {tree : Tree}
    (follows : operandMayFollow previous = true) (reads : Reads 0 [part] tree)
    (ends : operandMayFollow (some part) = false) :
    Scanned (some part) outer (current ++ [part]) where
  contexts := scanned.contexts
  awaits after := by simp [ends] at after
  complete _ := scanned.awaits follows _ _ reads
  opened equal := by simp [equal, operandMayFollow] at ends

theorem unary (scanned : Scanned previous outer current)
    (follows : operandMayFollow previous = true) (op : UnaryOp) :
    Scanned (some (.operator (.unary op))) outer
      (current ++ [.operator (.unary op)]) where
  contexts := scanned.contexts
  awaits _ := (scanned.awaits follows).append_unary op
  complete after := by simp [operandMayFollow] at after
  opened equal := by simp at equal

theorem binary (scanned : Scanned previous outer current)
    (precedes : operandPrecedes previous = true) (op : BinaryOp) :
    Scanned (some (.operator (.binary op))) outer
      (current ++ [.operator (.binary op)]) where
  contexts := scanned.contexts
  awaits _ := by
    rcases scanned.complete_of_precedes precedes with ⟨tree, reads⟩
    exact .append_binary reads op
  complete after := by simp [operandMayFollow] at after
  opened equal := by simp at equal

theorem opening (scanned : Scanned previous outer current)
    (follows : operandMayFollow previous = true) :
    Scanned (some .opening) (current :: outer) [] where
  contexts := by
    intro context member
    rcases List.mem_cons.1 member with rfl | later
    · exact scanned.awaits follows
    · exact scanned.contexts context later
  awaits _ := .nil
  complete after := by simp [operandMayFollow] at after
  opened _ := List.cons_ne_nil _ _

/-- The expression in the last open parenthesis becomes an operand. -/
theorem closing {context : List Part}
    (scanned : Scanned previous (context :: outer) current)
    (precedes : operandPrecedes previous = true) :
    Scanned (some .closing) outer
      (context ++ .opening :: (current ++ [.closing])) where
  contexts other member := scanned.contexts other (List.mem_cons_of_mem _ member)
  awaits after := by simp [operandMayFollow] at after
  complete _ := by
    rcases scanned.complete_of_precedes precedes with ⟨tree, reads⟩
    exact scanned.contexts context (List.mem_cons_self ..) _ _ (.group 0 reads)
  opened equal := by simp at equal

end Scanned

/-- The rest of an expression completes what has been scanned of it. -/
theorem exists_reads_of_scanned (rest : List Part) {previous : Option Part}
    {position : Nat} {outer : List (List Part)} {current : List Part}
    (scanned : Scanned previous outer current)
    (neighbours : checkNeighbours previous position rest = .ok ())
    (groups : checkGroups outer.length rest = .ok ())
    (noBytes : rest.any Part.isBytes = false)
    (nonempty : previous.toList ++ rest ≠ [])
    (last : ∀ op, (previous.toList ++ rest).getLast? ≠ some (.operator op)) :
    ∃ tree, Reads loosest (assemble outer current ++ rest) tree := by
  induction rest generalizing previous position outer current with
  | nil =>
      have closed : outer = [] := by
        simpa [checkGroups] using groups
      subst closed
      rw [List.append_nil]
      apply scanned.complete
      match previous with
      | none => simp at nonempty
      | some .opening => exact absurd rfl (scanned.opened rfl)
      | some (.operator op) => exact absurd rfl (last op)
      | some (.address _) | some (.symbol _) | some .closing | some (.bytes ..) => rfl
  | cons part rest ih =>
      obtain ⟨fits, neighbours⟩ : part.mayFollow previous = true ∧
          checkNeighbours (some part) (position + 1) rest = .ok () := by
        rw [checkNeighbours] at neighbours
        split at neighbours
        · exact ⟨by assumption, neighbours⟩
        · contradiction
      obtain ⟨notBytes, noBytes⟩ : part.isBytes = false ∧
          rest.any Part.isBytes = false := by
        simpa using noBytes
      have last (op : Operator) :
          ((some part).toList ++ rest).getLast? ≠ some (.operator op) := by
        have whole := last op
        simpa [List.getLast?_append, List.getLast?_cons] using whole
      have step {outer' : List (List Part)} {current' : List Part}
          (scanned' : Scanned (some part) outer' current')
          (groups' : checkGroups outer'.length rest = .ok ())
          (equal : assemble outer' current' = assemble outer current ++ [part]) :
          ∃ tree, Reads loosest (assemble outer current ++ part :: rest) tree := by
        have whole := ih scanned' neighbours groups' noBytes (by simp) last
        rwa [equal, List.append_assoc, List.singleton_append] at whole
      cases part with
      | address value =>
          exact step (scanned.operand fits (.address 0 value) rfl) groups
            (assemble_append ..)
      | symbol ref =>
          exact step (scanned.operand fits (.symbol 0 ref) rfl) groups
            (assemble_append ..)
      | operator operator =>
          cases operator with
          | unary op => exact step (scanned.unary fits op) groups (assemble_append ..)
          | binary op => exact step (scanned.binary fits op) groups (assemble_append ..)
      | opening =>
          apply step (scanned.opening fits) groups
          rw [assemble, assemble_append]
      | closing =>
          cases outer with
          | nil => simp [checkGroups] at groups
          | cons context outer =>
              apply step (scanned.closing fits) groups
              rw [assemble, ← assemble_append, List.append_assoc, List.cons_append]
      | bytes => simp [Part.isBytes] at notBytes

/-! ## Parts that can be put into postfix order -/

theorem orderParts_eq_ok_iff {parts ordered : List Part} :
    orderParts parts = .ok ordered ↔
      checkParts parts = .ok () ∧ postfixOrder parts [] = .ok ordered := by
  rw [orderParts]
  cases checkParts parts <;> simp

theorem checkEnd_eq_ok_iff {parts : List Part} :
    checkEnd parts = .ok () ↔ ∀ op, parts.getLast? ≠ some (.operator op) := by
  rw [checkEnd]
  split <;> simp_all

/-- A check of several parts is a check of each with its neighbour and of the
last. -/
theorem checkParts_eq_ok_iff (first second : Part) (rest : List Part) :
    checkParts (first :: second :: rest) = .ok () ↔
      (first :: second :: rest).any Part.isBytes = false ∧
        checkNeighbours none 1 (first :: second :: rest) = .ok () ∧
        ∀ op, (first :: second :: rest).getLast? ≠ some (.operator op) := by
  simp only [checkParts, ← checkEnd_eq_ok_iff]
  cases any : (first :: second :: rest).any Part.isBytes with
  | true => simp
  | false => cases checkNeighbours none 1 (first :: second :: rest) <;> simp

/-- Parts that can be put into postfix order have a tree, unless there are none or
they are a lone string. -/
theorem exists_reads_of_orderParts {parts ordered : List Part}
    (accepted : orderParts parts = .ok ordered) (nonempty : parts ≠ [])
    (notString : ∀ content literal, parts ≠ [.bytes content literal]) :
    ∃ tree, Reads loosest parts tree := by
  rcases orderParts_eq_ok_iff.1 accepted with ⟨checked, reordered⟩
  match parts with
  | [] => contradiction
  | [.address value] => exact ⟨_, .address _ value⟩
  | [.symbol ref] => exact ⟨_, .symbol _ ref⟩
  | [.bytes content literal] => exact absurd rfl (notString content literal)
  | [.operator _] | [.opening] | [.closing] => simp [checkParts, Part.isOperand] at checked
  | first :: second :: rest =>
      obtain ⟨noBytes, neighbours, last⟩ :=
        (checkParts_eq_ok_iff first second rest).1 checked
      have groups := (exists_postfixOrder_eq_ok_iff _).1 ⟨ordered, reordered⟩
      exact exists_reads_of_scanned (first :: second :: rest) .start neighbours groups
        noBytes nonempty last

end RelocExpr
