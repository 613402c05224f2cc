import Mathlib.Data.List.TakeWhile
import RelocExpr.Proofs.Acceptance

/-!
# Postfix order is post-order

While the parts of an expression are put into postfix order, some parts of its
tree have been written and its last operators still wait on the stack.  Whatever
comes after the expression, those operators are written next: by the end of the
text, by a parenthesis that closes, or by a binary operator that the expression
admits no tighter one than.

So the outcome is the post-order of the tree of the parts.
-/

namespace RelocExpr

/-- A binary operator that binds tighter than the bound leaves the stack alone. -/
def Rests (bound : Nat) (stack : List Waiting) : Prop :=
  ∀ op : BinaryOp, op.precedence < bound → op.release stack = ([], stack)

/-- A binary operator that binds no tighter than the bound lets the operator go. -/
def Releasable (bound : Nat) : Operator → Prop
  | .unary _ => True
  | .binary op => op.precedence < bound

theorem Releasable.mono {bound loose : Nat} {operator : Operator}
    (releasable : Releasable bound operator) (le : bound ≤ loose) :
    Releasable loose operator := by
  cases operator with
  | unary => trivial
  | binary op => exact Nat.lt_of_lt_of_le releasable le

namespace Rests

theorem nil (bound : Nat) : Rests bound [] := by
  intro op below
  rfl

theorem opening (bound : Nat) (stack : List Waiting) : Rests bound (.opening :: stack) := by
  intro op below
  rfl

theorem zero (stack : List Waiting) : Rests 0 stack := by
  intro op below
  omega

theorem binary (op : BinaryOp) (stack : List Waiting) :
    Rests op.precedence (.operator (.binary op) :: stack) := by
  intro other below
  simp [BinaryOp.release, BinaryOp.releases, below]

theorem mono {bound low : Nat} {stack : List Waiting} (rests : Rests bound stack)
    (le : low ≤ bound) : Rests low stack := by
  intro op below
  exact rests op (Nat.lt_of_lt_of_le below le)

end Rests

section

variable {op : BinaryOp} {bound : Nat} {pending : List Operator} {stack : List Waiting}

/-- The operators of a left operand are let go, and no others. -/
theorem release_pending
    (releasable : ∀ waiting ∈ pending, Releasable (op.precedence + 1) waiting)
    (rests : Rests bound stack) (below : op.precedence < bound) :
    op.release (pending.map Waiting.operator ++ stack) =
      (pending.map Part.operator, stack) := by
  induction pending with
  | nil => exact rests op below
  | cons waiting pending ih =>
      have releases : op.releases (.operator waiting) = true := by
        have head := releasable waiting (List.mem_cons_self ..)
        cases waiting with
        | unary => rfl
        | binary waiting => simpa [BinaryOp.releases] using Nat.le_of_lt_succ head
      have restReleasable (other : Operator) (member : other ∈ pending) :=
        releasable other (List.mem_cons_of_mem _ member)
      simp [BinaryOp.release, releases, ih restReleasable]

theorem closeGroup?_pending (pending : List Operator) (stack : List Waiting) :
    closeGroup? (pending.map Waiting.operator ++ .opening :: stack) =
      some (pending.map Part.operator, stack) := by
  induction pending with
  | nil => rfl
  | cons waiting pending ih => simp [closeGroup?, ih]

theorem releaseAll_pending (pending : List Operator) :
    releaseAll (pending.map Waiting.operator) = .ok (pending.map Part.operator) := by
  induction pending with
  | nil => rfl
  | cons waiting pending ih => simp [releaseAll, ih, Except.map]

end

private theorem map_append_map (first second : List Part)
    (result : Except ExpressionError (List Part)) :
    (result.map (second ++ ·)).map (first ++ ·) = result.map ((first ++ second) ++ ·) := by
  cases result <;> simp [Except.map]

/-- The parts of a tree are written in post-order up to the operators at its end,
which go on waiting. -/
theorem postfixOrder_of_reads {bound : Nat} {parts : List Part} {tree : Tree}
    (reads : Reads bound parts tree) {stack : List Waiting} (rests : Rests bound stack) :
    ∃ (written : List Part) (pending : List Operator),
      tree.postOrder = written ++ pending.map Part.operator ∧
      (∀ waiting ∈ pending, Releasable bound waiting) ∧
      ∀ rest, postfixOrder (parts ++ rest) stack =
        (postfixOrder rest (pending.map Waiting.operator ++ stack)).map
          (written ++ ·) := by
  induction reads generalizing stack with
  | address bound value =>
      exact ⟨[.address value], [], rfl, by simp, fun rest => rfl⟩
  | symbol bound ref =>
      exact ⟨[.symbol ref], [], rfl, by simp, fun rest => rfl⟩
  | @group parts tree bound _ ih =>
      rcases ih (Rests.opening loosest stack) with ⟨written, pending, order, -, reorder⟩
      refine ⟨tree.postOrder, [], by simp, by simp, ?_⟩
      intro rest
      rw [List.cons_append, List.append_assoc, postfixOrder, reorder,
        List.singleton_append, postfixOrder, closeGroup?_pending]
      rw [map_append_map, ← order]
      rfl
  | @unary parts tree bound op _ ih =>
      obtain ⟨written, pending, order, releasable, reorder⟩ :=
        ih (Rests.zero (.operator (.unary op) :: stack))
      refine ⟨written, pending ++ [.unary op], ?_, ?_, ?_⟩
      · rw [Tree.postOrder, order, List.map_append, List.append_assoc]
        rfl
      · intro waiting member
        rcases List.mem_append.1 member with inner | outer
        · exact (releasable waiting inner).mono (Nat.zero_le _)
        · rw [List.mem_singleton.1 outer]
          trivial
      · intro rest
        rw [List.cons_append, postfixOrder, reorder, List.map_append, List.append_assoc]
        rfl
  | @binary bound op left right leftTree rightTree below _ _ leftIH rightIH =>
      obtain ⟨leftWritten, leftPending, leftOrder, leftReleasable, leftReorder⟩ :=
        leftIH (rests.mono below)
      obtain ⟨rightWritten, rightPending, rightOrder, rightReleasable, rightReorder⟩ :=
        rightIH (Rests.binary op stack)
      refine ⟨leftTree.postOrder ++ rightWritten, rightPending ++ [.binary op], ?_, ?_, ?_⟩
      · rw [Tree.postOrder, rightOrder, List.map_append]
        simp only [List.append_assoc]
        rfl
      · intro waiting member
        rcases List.mem_append.1 member with inner | outer
        · exact (rightReleasable waiting inner).mono (Nat.le_of_lt below)
        · rw [List.mem_singleton.1 outer]
          exact below
      · intro rest
        rw [List.append_assoc, List.cons_append, leftReorder, postfixOrder,
          release_pending leftReleasable rests below]
        dsimp only
        rw [rightReorder, map_append_map, map_append_map, ← leftOrder, List.map_append,
          List.append_assoc]
        rfl

/-- An expression is put into the post-order of its tree. -/
theorem postfixOrder_eq_postOrder {parts : List Part} {tree : Tree}
    (reads : Reads loosest parts tree) : postfixOrder parts [] = .ok tree.postOrder := by
  obtain ⟨written, pending, order, -, reorder⟩ :=
    postfixOrder_of_reads reads (Rests.nil loosest)
  have whole := reorder []
  rw [List.append_nil, List.append_nil, postfixOrder, releaseAll_pending] at whole
  rw [whole, order]
  rfl

/-! ## Ordered expressions -/

/-- Without `NUL` only short strings are simplified. -/
theorem simplifyParts_of_noNul {parts : List Part}
    (noNul : .operator (.unary .nul) ∉ parts) :
    simplifyParts parts = parts.map absorbString := by
  have dropped : parts.dropWhile (· ≠ .operator (.unary .nul)) = [] := by
    rw [List.dropWhile_eq_nil_iff]
    intro part member
    exact decide_eq_true fun equal => noNul (equal ▸ member)
  rw [simplifyParts, collapseNul, dropped]

/-- Only a string of more than two bytes is left as one. -/
theorem absorbString_eq_bytes_iff {part : Part} {content : List UInt8}
    {literal : String} :
    absorbString part = .bytes content literal ↔
      part = .bytes content literal ∧ shortString? content = none := by
  cases part with
  | bytes other text =>
      rw [absorbString]
      cases short : shortString? other with
      | some value =>
          constructor
          · intro equal
            cases equal
          · rintro ⟨equal, long⟩
            cases equal
            simp [short] at long
      | none =>
          constructor
          · intro equal
            cases equal
            exact ⟨rfl, short⟩
          · rintro ⟨equal, -⟩
            exact equal
  | _ => simp [absorbString]

theorem Expression.toPostfix_eq_ok_iff {expression ordered : Expression}
    (unordered : expression.isPostfix = false) :
    expression.toPostfix = (.ok (), ordered) ↔
      ∃ parts, orderParts (simplifyParts expression.parts) = .ok parts ∧
        ordered = { expression with parts, isPostfix := true } := by
  rw [Expression.toPostfix, if_neg (by simp [unordered])]
  cases reordered : orderParts (simplifyParts expression.parts) with
  | error error => simp [reordered]
  | ok parts => simp [reordered, eq_comm]

/-- Parts that have a tree are put into its post-order and no other one's. -/
theorem postOrder_of_orderParts {parts ordered : List Part}
    (accepted : orderParts parts = .ok ordered) (nonempty : parts ≠ [])
    (notString : ∀ content literal, parts ≠ [.bytes content literal]) :
    ∃ tree, Reads loosest parts tree ∧ ordered = tree.postOrder := by
  rcases exists_reads_of_orderParts accepted nonempty notString with ⟨tree, reads⟩
  have reordered := (orderParts_eq_ok_iff.1 accepted).2
  rw [postfixOrder_eq_postOrder reads] at reordered
  exact ⟨tree, reads, (Except.ok.inj reordered).symm⟩

/-- Putting an expression into postfix order leaves the post-order of its one
tree, the one that reading by recursive descent finds. -/
theorem Expression.toPostfix_eq_postOrder {expression ordered : Expression}
    (unordered : expression.isPostfix = false)
    (noNul : .operator (.unary .nul) ∉ expression.parts)
    (accepted : expression.toPostfix = (.ok (), ordered))
    (nonempty : expression.parts ≠ [])
    (notString : ∀ content literal, shortString? content = none →
      expression.parts ≠ [.bytes content literal]) :
    ∃ tree, ordered.parts = tree.postOrder ∧
      Tree.ofParts? (expression.parts.map absorbString) = some tree ∧
      ∀ other, Reads loosest (expression.parts.map absorbString) other ↔
        other = tree := by
  rcases (toPostfix_eq_ok_iff unordered).1 accepted with ⟨parts, reordered, rfl⟩
  rw [simplifyParts_of_noNul noNul] at reordered
  have nonempty' : expression.parts.map absorbString ≠ [] := by simpa using nonempty
  have notString' (content : List UInt8) (literal : String) :
      expression.parts.map absorbString ≠ [.bytes content literal] := by
    intro equal
    rcases List.map_eq_singleton_iff.1 equal with ⟨part, single, absorbed⟩
    rcases absorbString_eq_bytes_iff.1 absorbed with ⟨rfl, long⟩
    exact notString content literal long single
  rcases postOrder_of_orderParts reordered nonempty' notString' with ⟨tree, reads, order⟩
  refine ⟨tree, order, Tree.ofParts?_of_reads reads, ?_⟩
  intro other
  constructor
  · intro otherReads
    exact reads.unique otherReads
  · rintro rfl
    exact reads

/-- In `-A * (2 + B) - 3 - 1` the sign comes first, then the group, and the first
difference before the second. -/
theorem toPostfix_eq_postOrder_of_signed_product :
    let symbol (name : String) : Part :=
      .symbol { name, external := false, root := false }
    let parts : List Part :=
      [.operator (.unary .minus), symbol "A", .operator (.binary .times), .opening,
        .number 2, .operator (.binary .plus), symbol "B", .closing,
        .operator (.binary .minus), .number 3, .operator (.binary .minus), .number 1]
    ∃ tree : Tree,
      [symbol "A", .operator (.unary .minus), .number 2, symbol "B",
        .operator (.binary .plus), .operator (.binary .times), .number 3,
        .operator (.binary .minus), .number 1, .operator (.binary .minus)] =
        tree.postOrder ∧
      Tree.ofParts? (parts.map absorbString) = some tree ∧
      ∀ other, Reads loosest (parts.map absorbString) other ↔ other = tree := by
  intro symbol parts
  exact @Expression.toPostfix_eq_postOrder
    { source := "-A * (2 + B) - 3 - 1", parts, isByte := false, isPostfix := false } _
    rfl (by decide) rfl (by decide) (by intro _ _ _ equal; cases equal)

/-! ## What an ordered expression is made of -/

/-- Expressions that were put into postfix order, and those without parts. -/
inductive Expression.Ordered : Expression → Prop where
  | empty (isByte : Bool) : Ordered (Expression.empty.withSize isByte)
  | toPostfix {expression ordered : Expression} :
      expression.isPostfix = false → expression.toPostfix = (.ok (), ordered) →
      Ordered ordered

/-- A tree has `NUL` only if its parts have. -/
theorem Reads.freeOfNul {bound : Nat} {parts : List Part} {tree : Tree}
    (reads : Reads bound parts tree) (noNul : .operator (.unary .nul) ∉ parts) :
    tree.FreeOfNul := by
  induction reads with
  | address | symbol => trivial
  | group _ _ ih =>
      apply ih
      intro member
      exact noNul (by simp [member])
  | unary _ op _ ih =>
      constructor
      · rintro rfl
        exact noNul (List.mem_cons_self ..)
      · apply ih
        intro member
        exact noNul (List.mem_cons_of_mem _ member)
  | binary _ _ _ leftIH rightIH =>
      constructor
      · apply leftIH
        intro member
        exact noNul (List.mem_append_left _ member)
      · apply rightIH
        intro member
        exact noNul (by simp [member])

/-- No operator comes of a string. -/
theorem absorbString_eq_operator_iff {part : Part} {operator : Operator} :
    absorbString part = .operator operator ↔ part = .operator operator := by
  cases part with
  | bytes content literal =>
      rw [absorbString]
      cases shortString? content <;> simp [Part.number]
  | _ => simp [absorbString]

/-- After `NUL` at most one part is kept. -/
theorem simplifyParts_length_le {parts : List Part}
    (hasNul : .operator (.unary .nul) ∈ parts) : (simplifyParts parts).length ≤ 1 := by
  rw [simplifyParts, List.length_map, collapseNul]
  split
  · next dropped =>
      have all := List.dropWhile_eq_nil_iff.1 dropped _ hasNul
      simp at all
  · exact List.length_take_le 1 _

/-- No `NUL` is left in parts that can be ordered. -/
theorem noNul_of_orderParts {parts ordered : List Part}
    (accepted : orderParts (simplifyParts parts) = .ok ordered) :
    .operator (.unary .nul) ∉ simplifyParts parts := by
  intro member
  by_cases hasNul : .operator (.unary .nul) ∈ parts
  · have checked := (orderParts_eq_ok_iff.1 accepted).1
    have short := simplifyParts_length_le hasNul
    obtain ⟨part, single⟩ := List.length_eq_one_iff.1
      (Nat.le_antisymm short (List.length_pos_of_mem member))
    rw [single, List.mem_singleton] at member
    rw [single, ← member] at checked
    contradiction
  · rw [simplifyParts_of_noNul hasNul] at member
    rcases List.mem_map.1 member with ⟨part, found, absorbed⟩
    rw [absorbString_eq_operator_iff] at absorbed
    exact hasNul (absorbed ▸ found)

namespace Expression.Ordered

variable {expression : Expression}

theorem isPostfix (ordered : expression.Ordered) : expression.isPostfix = true := by
  cases ordered with
  | empty => rfl
  | toPostfix unordered accepted =>
      rcases (toPostfix_eq_ok_iff unordered).1 accepted with ⟨parts, -, rfl⟩
      rfl

/-- An ordered expression has no parts, or it is a lone string, or its parts are the
post-order of a tree. -/
theorem parts_cases (ordered : expression.Ordered) :
    expression.parts = [] ∨
      (∃ content literal, expression.parts = [.bytes content literal]) ∨
      ∃ tree : Tree, tree.FreeOfNul ∧ expression.parts = tree.postOrder := by
  cases ordered with
  | empty => exact .inl rfl
  | @toPostfix raw _ unordered accepted =>
      rcases (toPostfix_eq_ok_iff unordered).1 accepted with ⟨parts, reordered, rfl⟩
      by_cases nonempty : simplifyParts raw.parts = []
      · rw [nonempty] at reordered
        cases reordered
        exact .inl rfl
      by_cases string :
          ∃ content literal, simplifyParts raw.parts = [.bytes content literal]
      · obtain ⟨content, literal, single⟩ := string
        rw [single] at reordered
        cases reordered
        exact .inr (.inl ⟨content, literal, rfl⟩)
      · have notString (content : List UInt8) (literal : String) :
            simplifyParts raw.parts ≠ [.bytes content literal] := by
          intro single
          exact string ⟨content, literal, single⟩
        obtain ⟨tree, reads, order⟩ :=
          postOrder_of_orderParts reordered nonempty notString
        exact .inr (.inr ⟨tree, reads.freeOfNul (noNul_of_orderParts reordered), order⟩)

/-- Nothing is left of `NUL`. -/
theorem nul_not_mem_parts (ordered : expression.Ordered) :
    .operator (.unary .nul) ∉ expression.parts := by
  rcases ordered.parts_cases with
    empty | ⟨content, literal, single⟩ | ⟨tree, freeOfNul, parts⟩
  · simp [empty]
  · simp [single]
  · rw [parts]
    exact freeOfNul.not_mem_postOrder

end Expression.Ordered

end RelocExpr
