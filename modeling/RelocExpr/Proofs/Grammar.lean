import RelocExpr.Expression.Postfix
import RelocExpr.Proofs.Tree

/-!
# The grammar of expressions

A primary is an address, a symbol or an expression in parentheses.  A chain of
unary operators applies to the primary after it.  Of two binary operators the one
with the lower precedence binds tighter, and of two with one precedence the left
one does.

`Reads` says this as a relation between parts and a tree, and `Tree.ofParts?` is a
reader by recursive descent.  The reader finds every tree of the relation, so
there is at most one.
-/

namespace RelocExpr

/-- A bound above the precedences of all binary operators. -/
def loosest : Nat := 9

theorem BinaryOp.precedence_lt_loosest (op : BinaryOp) :
    op.precedence < loosest := by
  cases op <;> decide

/-- The parts are read as the tree.  A binary operator outside of parentheses has
a precedence below the bound, so with the bound zero there is none. -/
inductive Reads : (bound : Nat) → List Part → Tree → Prop where
  | address (bound : Nat) (value : Address) :
      Reads bound [.address value] (.address value)
  | symbol (bound : Nat) (ref : SymbolRef) :
      Reads bound [.symbol ref] (.symbol ref)
  | group {parts : List Part} {tree : Tree} (bound : Nat) :
      Reads loosest parts tree →
      Reads bound (.opening :: (parts ++ [.closing])) tree
  | unary {parts : List Part} {tree : Tree} (bound : Nat) (op : UnaryOp) :
      Reads 0 parts tree →
      Reads bound (.operator (.unary op) :: parts) (.unary op tree)
  | binary {bound : Nat} {op : BinaryOp} {left right : List Part}
      {leftTree rightTree : Tree} :
      op.precedence < bound →
      Reads (op.precedence + 1) left leftTree →
      Reads op.precedence right rightTree →
      Reads bound (left ++ .operator (.binary op) :: right)
        (.binary op leftTree rightTree)

namespace Reads

variable {bound loose : Nat} {parts right : List Part} {tree rightTree : Tree}

theorem mono (reads : Reads bound parts tree) (le : bound ≤ loose) :
    Reads loose parts tree := by
  cases reads with
  | address => exact .address ..
  | symbol => exact .symbol ..
  | group _ inner => exact .group loose inner
  | unary _ op operand => exact .unary loose op operand
  | binary below left right =>
      exact .binary (Nat.lt_of_lt_of_le below le) left right

/-- One more binary operator and operand can be put after an expression.  They go
down its right side to the first operator that binds at least as tight. -/
theorem append_binary (reads : Reads bound parts tree) {op : BinaryOp}
    (below : op.precedence < bound) (operand : Reads 0 right rightTree) :
    ∃ whole, Reads bound (parts ++ .operator (.binary op) :: right) whole := by
  have operand' : Reads op.precedence right rightTree := operand.mono (Nat.zero_le _)
  induction reads with
  | address bound value => exact ⟨_, .binary below (.address ..) operand'⟩
  | symbol bound ref => exact ⟨_, .binary below (.symbol ..) operand'⟩
  | group bound inner => exact ⟨_, .binary below (.group _ inner) operand'⟩
  | unary bound other inner => exact ⟨_, .binary below (.unary _ other inner) operand'⟩
  | @binary bound other left middle _ _ otherBelow leftReads middleReads _ ih =>
      by_cases tighter : other.precedence ≤ op.precedence
      · exact ⟨_, .binary below
          (.binary (Nat.lt_succ_of_le tighter) leftReads middleReads) operand'⟩
      · obtain ⟨whole, wholeReads⟩ := ih (Nat.lt_of_not_le tighter)
        rw [List.append_assoc, List.cons_append]
        exact ⟨_, .binary otherBelow leftReads wholeReads⟩

end Reads

/-! ## Reading by recursive descent -/

namespace Tree

/-- What is left of some parts when a tree has been read from them. -/
abbrev Rest (parts : List Part) := { rest : List Part // rest.length < parts.length }

mutual

/-- Read a primary with the unary operators before it. -/
def readOperand : (parts : List Part) → Option (Tree × Rest parts)
  | .address value :: rest => some (.address value, ⟨rest, by simp⟩)
  | .symbol ref :: rest => some (.symbol ref, ⟨rest, by simp⟩)
  | .operator (.unary op) :: rest =>
      (readOperand rest).map fun (operand, after) =>
        (.unary op operand, ⟨after.1, Nat.lt_succ_of_lt after.2⟩)
  | .opening :: rest =>
      match readTree loosest rest with
      | some (tree, ⟨.closing :: after, shorter⟩) =>
          some (tree, ⟨after, by simp only [List.length_cons] at *; omega⟩)
      | _ => none
  | _ => none
  termination_by parts => (parts.length, 0)

/-- Read an operand and the binary operators after it that bind tighter than the
bound. -/
def readTree (bound : Nat) (parts : List Part) : Option (Tree × Rest parts) :=
  (readOperand parts).bind fun (first, after) =>
    (readOperators bound first after.1).map fun (tree, rest) =>
      (tree, ⟨rest.1, Nat.lt_of_le_of_lt rest.2 after.2⟩)
  termination_by (parts.length, 1)
  decreasing_by
    · exact .right _ (by decide)
    · exact .left _ _ after.2

/-- Read binary operators that bind tighter than the bound, after their left
operand. -/
def readOperators (bound : Nat) (left : Tree) (parts : List Part) :
    Option (Tree × { rest : List Part // rest.length ≤ parts.length }) :=
  match parts with
  | .operator (.binary op) :: rest =>
      if op.precedence < bound then
        (readTree op.precedence rest).bind fun (right, after) =>
          (readOperators bound (.binary op left right) after.1).map
            fun (tree, later) =>
              (tree, ⟨later.1, Nat.le_succ_of_le
                (Nat.le_trans later.2 (Nat.le_of_lt after.2))⟩)
      else some (left, ⟨_, Nat.le_refl _⟩)
  | _ => some (left, ⟨_, Nat.le_refl _⟩)
  termination_by (parts.length, 2)

end

/-- The tree of an expression, if the parts are one. -/
def ofParts? (parts : List Part) : Option Tree :=
  match readTree loosest parts with
  | some (tree, ⟨[], _⟩) => some tree
  | _ => none

/-- What has been read and what is left, without the bound on its length. -/
def forget {short : List Part → Prop}
    (outcome : Option (Tree × { rest : List Part // short rest })) :
    Option (Tree × List Part) :=
  outcome.map fun (tree, rest) => (tree, rest.1)

/-- The parts begin with no binary operator that binds tighter than the bound. -/
def StopsAt (bound : Nat) (parts : List Part) : Prop :=
  ∀ op rest, parts = .operator (.binary op) :: rest → bound ≤ op.precedence

theorem stopsAt_nil (bound : Nat) : StopsAt bound [] := by
  intro op rest equal
  cases equal

theorem stopsAt_closing (bound : Nat) (rest : List Part) :
    StopsAt bound (.closing :: rest) := by
  intro op after equal
  cases equal

section

variable {bound : Nat} {parts rest : List Part} {tree left : Tree} {op : BinaryOp}

theorem forget_readOperand_unary (op : UnaryOp) (rest : List Part) :
    forget (readOperand (.operator (.unary op) :: rest)) =
      (forget (readOperand rest)).map fun (operand, after) =>
        (.unary op operand, after) := by
  rw [readOperand]
  cases readOperand rest <;> rfl

theorem forget_readOperand_opening
    (read : forget (readTree loosest parts) = some (tree, .closing :: rest)) :
    forget (readOperand (.opening :: parts)) = some (tree, rest) := by
  rw [readOperand]
  cases found : readTree loosest parts with
  | none => simp [forget, found] at read
  | some outcome =>
      rcases outcome with ⟨inner, after, shorter⟩
      simp only [forget, found, Option.map_some, Option.some.injEq,
        Prod.mk.injEq] at read
      rcases read with ⟨rfl, rfl⟩
      rfl

theorem forget_readTree (bound : Nat) (parts : List Part) :
    forget (readTree bound parts) =
      (forget (readOperand parts)).bind fun (first, after) =>
        forget (readOperators bound first after) := by
  rw [readTree]
  cases readOperand parts with
  | none => rfl
  | some outcome =>
      rcases outcome with ⟨first, after⟩
      simp only [Option.bind_some, forget, Option.map_some]
      cases readOperators bound first after.1 <;> rfl

theorem forget_readTree_of_readOperand
    (read : forget (readOperand parts) = some (tree, rest)) :
    forget (readTree bound parts) = forget (readOperators bound tree rest) := by
  rw [forget_readTree, read, Option.bind_some]

theorem forget_readOperators_binary (below : op.precedence < bound) :
    forget (readOperators bound left (.operator (.binary op) :: rest)) =
      (forget (readTree op.precedence rest)).bind fun (right, after) =>
        forget (readOperators bound (.binary op left right) after) := by
  rw [readOperators, if_pos below]
  cases readTree op.precedence rest with
  | none => rfl
  | some outcome =>
      rcases outcome with ⟨right, after⟩
      simp only [Option.bind_some, forget, Option.map_some]
      cases readOperators bound (.binary op left right) after.1 <;> rfl

theorem forget_readOperators_of_stopsAt (stops : StopsAt bound rest) :
    forget (readOperators bound left rest) = some (left, rest) := by
  rw [readOperators.eq_def]
  split
  · next op after =>
      rw [if_neg (Nat.not_lt.2 (stops op after rfl))]
      rfl
  · rfl

end

/-- The reader finds the tree in the parts.  Binary operators after them stay unread up
to the tightest one that the bound admits, which is where the reader goes on with its
own bound. -/
structure Finds (bound : Nat) (parts : List Part) (tree : Tree) : Prop where
  operand : bound = 0 →
    ∀ rest, forget (readOperand (parts ++ rest)) = some (tree, rest)
  whole : ∀ {loose rest}, bound ≤ loose → StopsAt (bound - 1) rest →
    forget (readTree loose (parts ++ rest)) = forget (readOperators loose tree rest)

/-- An operand is found whatever the bound is. -/
theorem Finds.of_operand {parts : List Part} {tree : Tree}
    (operand : ∀ rest, forget (readOperand (parts ++ rest)) = some (tree, rest))
    (bound : Nat) : Finds bound parts tree where
  operand _ := operand
  whole _ _ := forget_readTree_of_readOperand (operand _)

/-- The reader finds the tree of a derivation. -/
theorem finds_of_reads {bound : Nat} {parts : List Part} {tree : Tree}
    (reads : Reads bound parts tree) : Finds bound parts tree := by
  induction reads with
  | address bound value =>
      apply Finds.of_operand
      intro rest
      rw [List.singleton_append, readOperand]
      rfl
  | symbol bound ref =>
      apply Finds.of_operand
      intro rest
      rw [List.singleton_append, readOperand]
      rfl
  | @group parts tree bound reads ih =>
      apply Finds.of_operand
      intro rest
      rw [List.cons_append, List.append_assoc, List.singleton_append]
      apply forget_readOperand_opening
      rw [ih.whole (Nat.le_refl _) (stopsAt_closing _ _)]
      exact forget_readOperators_of_stopsAt (stopsAt_closing _ _)
  | @unary parts tree bound op reads ih =>
      apply Finds.of_operand
      intro rest
      rw [List.cons_append, forget_readOperand_unary, ih.operand rfl]
      rfl
  | @binary bound op left right leftTree rightTree below _ _ leftIH rightIH =>
      constructor
      · intro zero
        omega
      · intro loose rest le stops
        -- The operator itself stops the reading of its left operand.
        have leftStops : StopsAt (op.precedence + 1 - 1)
            (.operator (.binary op) :: (right ++ rest)) := by
          intro other after equal
          cases equal
          exact Nat.le_refl _
        have rightStops {low : Nat} (lower : low ≤ op.precedence) :
            StopsAt low rest := by
          intro other after equal
          have := stops other after equal
          omega
        rw [List.append_assoc, List.cons_append, leftIH.whole (by omega) leftStops,
          forget_readOperators_binary (Nat.lt_of_lt_of_le below le),
          rightIH.whole (Nat.le_refl _) (rightStops (Nat.sub_le _ _)),
          forget_readOperators_of_stopsAt (rightStops (Nat.le_refl _)),
          Option.bind_some]

/-- A derivation of a whole expression is what the reader finds. -/
theorem ofParts?_of_reads {parts : List Part} {tree : Tree}
    (reads : Reads loosest parts tree) : ofParts? parts = some tree := by
  have read : forget (readTree loosest parts) = some (tree, []) := by
    rw [← List.append_nil parts,
      (finds_of_reads reads).whole (Nat.le_refl _) (stopsAt_nil _)]
    exact forget_readOperators_of_stopsAt (stopsAt_nil _)
  rw [ofParts?]
  cases found : readTree loosest parts with
  | none => simp [forget, found] at read
  | some outcome =>
      rcases outcome with ⟨other, after, shorter⟩
      simp only [forget, found, Option.map_some, Option.some.injEq,
        Prod.mk.injEq] at read
      rcases read with ⟨rfl, rfl⟩
      rfl

end Tree

/-- Parts have at most one tree. -/
theorem Reads.unique {parts : List Part} {tree other : Tree}
    (reads : Reads loosest parts tree) (otherReads : Reads loosest parts other) :
    other = tree := by
  have found := Tree.ofParts?_of_reads reads
  rw [Tree.ofParts?_of_reads otherReads] at found
  exact Option.some.inj found

end RelocExpr
