import RelocExpr.Proofs.Mentions
import RelocExpr.Proofs.TreeEvaluation

/-!
# Tags in the place of types

Replacing types looks symbols up, and every lookup may change the table.  Only the values
that the lookups find count.  So when they are those of some later table, the tree that is
left is the one with the tags of that table, and the symbols directly under a `TYPE` have
been mentioned.
-/

namespace RelocExpr

namespace Tree

variable {tree operand : Tree} {op : UnaryOp} {ref : SymbolRef}

/-! ## Symbols directly under a type -/

/-- The symbol that is the whole operand of a `TYPE`. -/
def typedRef? : UnaryOp → Tree → Option SymbolRef
  | .type, .symbol ref => some ref
  | _, _ => none

/-- The symbols directly under a `TYPE`, from left to right. -/
def typedRefs : Tree → List SymbolRef
  | .address _ | .symbol _ => []
  | .unary op operand => (typedRef? op operand).toList ++ operand.typedRefs
  | .binary _ left right => left.typedRefs ++ right.typedRefs

/-- The symbols that are not directly under a `TYPE`, from left to right. -/
def looseRefs : Tree → List SymbolRef
  | .address _ => []
  | .symbol ref => [ref]
  | .unary op operand =>
      match typedRef? op operand with
      | some _ => []
      | none => operand.looseRefs
  | .binary _ left right => left.looseRefs ++ right.looseRefs

theorem eq_of_typedRef? (typed : typedRef? op operand = some ref) :
    op = .type ∧ operand = .symbol ref := by
  rw [typedRef?.eq_def] at typed
  split at typed
  · cases typed
    exact ⟨rfl, rfl⟩
  · cases typed

theorem typedRef?_of_ne {op : UnaryOp} (other : op ≠ .type) (operand : Tree) :
    typedRef? op operand = none := by
  rw [typedRef?.eq_def]
  split
  · contradiction
  · rfl

/-- Every symbol is directly under a `TYPE`, or it is not. -/
theorem mem_symbolRefs_iff :
    ref ∈ tree.symbolRefs ↔ ref ∈ tree.typedRefs ∨ ref ∈ tree.looseRefs := by
  induction tree with
  | address value => simp [symbolRefs, typedRefs, looseRefs]
  | symbol other => simp [symbolRefs, typedRefs, looseRefs]
  | unary op operand ih =>
      rw [symbolRefs, ih, typedRefs, looseRefs]
      cases typed : typedRef? op operand with
      | none => simp
      | some other =>
          obtain ⟨rfl, rfl⟩ := eq_of_typedRef? typed
          simp [typedRefs, looseRefs]
  | binary op left right leftIH rightIH =>
      rw [symbolRefs, typedRefs, looseRefs, List.mem_append, List.mem_append, List.mem_append,
        leftIH, rightIH]
      exact or_or_or_comm

theorem typedRefs_subset (tree : Tree) : tree.typedRefs ⊆ tree.symbolRefs := by
  intro ref member
  exact mem_symbolRefs_iff.2 (.inl member)

theorem looseRefs_subset (tree : Tree) : tree.looseRefs ⊆ tree.symbolRefs := by
  intro ref member
  exact mem_symbolRefs_iff.2 (.inr member)

/-- Such a symbol stands directly before the `TYPE` in the post-order. -/
theorem exists_postOrder_of_mem_typedRefs (member : ref ∈ tree.typedRefs) :
    ∃ before after, tree.postOrder =
      before ++ .symbol ref :: .operator (.unary .type) :: after := by
  induction tree with
  | address | symbol => cases member
  | unary op operand ih =>
      rcases List.mem_append.1 member with direct | inner
      · rw [Option.mem_toList, typedRef?.eq_def] at direct
        split at direct
        · cases direct
          exact ⟨[], [], rfl⟩
        · cases direct
      · obtain ⟨before, after, order⟩ := ih inner
        exact ⟨before, after ++ [.operator (.unary op)], by simp [postOrder, order]⟩
  | binary op left right leftIH rightIH =>
      rcases List.mem_append.1 member with inner | inner
      · obtain ⟨before, after, order⟩ := leftIH inner
        exact ⟨before, after ++ right.postOrder ++ [.operator (.binary op)],
          by simp [postOrder, order]⟩
      · obtain ⟨before, after, order⟩ := rightIH inner
        exact ⟨left.postOrder ++ before, after ++ [.operator (.binary op)],
          by simp [postOrder, order]⟩

end Tree

/-! ## Lookups one after the other -/

namespace SymbolTable

variable {table later : SymbolTable} {refs first second : List SymbolRef}

/-- When the references are looked up one after the other, each has the value that a later
table has for it. -/
def Anticipates (table later : SymbolTable) (refs : List SymbolRef) : Prop :=
  ∀ before ref after, refs = before ++ ref :: after →
    (table.mentionAll (before ++ [ref])).valueOf ref = later.valueOf ref

namespace Anticipates

theorem left (anticipates : table.Anticipates later (first ++ second)) :
    table.Anticipates later first := by
  intro before ref after split
  apply anticipates before ref (after ++ second)
  rw [split, List.append_assoc, List.cons_append]

theorem right (anticipates : table.Anticipates later (first ++ second)) :
    (table.mentionAll first).Anticipates later second := by
  intro before ref after split
  rw [← mentionAll_append, ← List.append_assoc]
  apply anticipates (first ++ before) ref after
  rw [split, List.append_assoc]

theorem head {ref : SymbolRef} {rest : List SymbolRef}
    (anticipates : table.Anticipates later (ref :: rest)) :
    (table.mention ref).valueOf ref = later.valueOf ref :=
  anticipates [] ref rest rfl

/-- Lookups that change nothing find what the table has. -/
theorem of_covers (covers : table.Covers refs) : table.Anticipates table refs := by
  intro before ref after split
  have among : before ++ [ref] ⊆ refs := by
    rw [split, List.append_cons before ref after]
    exact List.subset_append_left ..
  rw [(covers.subset among).mentionAll_eq]

end Anticipates

end SymbolTable

/-! ## Tags -/

namespace Tree

variable {tree operand : Tree} {table later : SymbolTable} {mode : EvaluationMode}

/-- The tree with the tags of a table in the place of its types. -/
def tagged (table : SymbolTable) : Tree → Tree
  | .address value => .address value
  | .symbol ref => .symbol ref
  | .unary op operand =>
      if op = .type then
        match operand.tagged table with
        | .address value => .address (.absolute value.segment.typeTag)
        | .symbol ref => .address (.absolute (table.valueOf ref).typeTag)
        | compound => .unary .type compound
      else .unary op (operand.tagged table)
  | .binary op left right => .binary op (left.tagged table) (right.tagged table)

/-- Only a symbol becomes a symbol. -/
theorem eq_symbol_of_tagged {ref : SymbolRef} (found : tree.tagged table = .symbol ref) :
    tree = .symbol ref := by
  cases tree with
  | address | binary => cases found
  | symbol other => exact found
  | unary op operand =>
      rw [tagged] at found
      split at found
      · split at found <;> cases found
      · cases found

/-- A `TYPE` that is not directly over a symbol has the tag of what its operand becomes, or
it stays. -/
theorem tagged_type (untyped : typedRef? .type operand = none) (table : SymbolTable) :
    (unary .type operand).tagged table =
      match operand.tagged table with
      | .address value => .address (.absolute value.segment.typeTag)
      | other => .unary .type other := by
  rw [tagged, if_pos rfl]
  cases found : operand.tagged table with
  | symbol ref =>
      rw [eq_symbol_of_tagged found] at untyped
      cases untyped
  | _ => rfl

/-- The symbols that are left are those that are not directly under a `TYPE`. -/
theorem symbolRefs_tagged (tree : Tree) (table : SymbolTable) :
    (tree.tagged table).symbolRefs = tree.looseRefs := by
  induction tree with
  | address value => rfl
  | symbol ref => rfl
  | unary op operand ih =>
      rw [looseRefs]
      cases typed : typedRef? op operand with
      | some ref =>
          obtain ⟨rfl, rfl⟩ := eq_of_typedRef? typed
          rfl
      | none =>
          rw [← ih]
          by_cases type : op = .type
          · subst type
            rw [tagged_type typed]
            cases operand.tagged table <;> rfl
          · rw [tagged, if_neg type, symbolRefs]
  | binary op left right leftIH rightIH => rw [tagged, symbolRefs, leftIH, rightIH, looseRefs]

/-- Only the values of the symbols directly under a `TYPE` count. -/
theorem tagged_congr (same : ∀ ref ∈ tree.typedRefs, later.valueOf ref = table.valueOf ref) :
    tree.tagged later = tree.tagged table := by
  induction tree with
  | address value => rfl
  | symbol ref => rfl
  | unary op operand ih =>
      have operandSame := ih fun ref member => same ref (List.mem_append_right _ member)
      cases typed : typedRef? op operand with
      | some ref =>
          obtain ⟨rfl, rfl⟩ := eq_of_typedRef? typed
          simp only [tagged, same ref (List.mem_singleton_self ref)]
      | none =>
          by_cases type : op = .type
          · subst type
            rw [tagged_type typed, tagged_type typed, operandSame]
          · rw [tagged, if_neg type, tagged, if_neg type, operandSame]
  | binary op left right leftIH rightIH =>
      rw [tagged, tagged, leftIH fun ref member => same ref (List.mem_append_left _ member),
        rightIH fun ref member => same ref (List.mem_append_right _ member)]

/-- When each lookup of a symbol directly under a `TYPE` finds the value that a later table
has, types are replaced by the tags of that table, and these symbols are mentioned. -/
theorem replaceTypes_eq_tagged (anticipates : table.Anticipates later tree.typedRefs)
    (decided : mode = .strict ∨ ∀ ref ∈ tree.typedRefs, later.valueOf ref ≠ .unknown) :
    tree.replaceTypes mode table =
      (some (tree.tagged later), table.mentionAll tree.typedRefs) := by
  induction tree generalizing table with
  | address value => rfl
  | symbol ref => rfl
  | unary op operand ih =>
      cases typed : typedRef? op operand with
      | some ref =>
          obtain ⟨rfl, rfl⟩ := eq_of_typedRef? typed
          have looked := anticipates.head
          simp only [replaceTypes, tagged, if_true, typeTag?, looked]
          cases found : later.valueOf ref with
          | known | external => rfl
          | unknown =>
              rcases decided with strict | known
              · rw [if_pos strict]
                rfl
              · exact absurd found (known ref (List.mem_singleton_self ref))
      | none =>
          have same : (unary op operand).typedRefs = operand.typedRefs := by
            rw [typedRefs, typed]
            rfl
          rw [same] at anticipates decided ⊢
          rw [replaceTypes, ih anticipates decided]
          by_cases type : op = .type
          · subst type
            rw [tagged_type typed]
            cases found : operand.tagged later with
            | symbol ref =>
                rw [eq_symbol_of_tagged found] at typed
                cases typed
            | _ => rfl
          · rw [tagged, if_neg type]
            exact if_neg type
  | binary op left right leftIH rightIH =>
      have leftDecided : mode = .strict ∨ ∀ ref ∈ left.typedRefs, later.valueOf ref ≠ .unknown :=
        decided.imp_right fun known ref member => known ref (List.mem_append_left _ member)
      have rightDecided :
          mode = .strict ∨ ∀ ref ∈ right.typedRefs, later.valueOf ref ≠ .unknown :=
        decided.imp_right fun known ref member => known ref (List.mem_append_right _ member)
      rw [replaceTypes, leftIH anticipates.left leftDecided]
      simp only
      rw [rightIH anticipates.right rightDecided, typedRefs, SymbolTable.mentionAll_append]
      rfl

/-- When these symbols have been mentioned, the table stays as it is. -/
theorem replaceTypes_of_covers (covers : table.Covers tree.typedRefs)
    (decided : mode = .strict ∨ ∀ ref ∈ tree.typedRefs, table.valueOf ref ≠ .unknown) :
    tree.replaceTypes mode table = (some (tree.tagged table), table) := by
  rw [replaceTypes_eq_tagged (.of_covers covers) decided, covers.mentionAll_eq]

theorem replaceTypes_of_settled
    (settled : ∀ ref ∈ tree.typedRefs, table.valueOf ref ≠ .unknown) (mode : EvaluationMode) :
    tree.replaceTypes mode table = (some (tree.tagged table), table) :=
  replaceTypes_of_covers (.of_settled settled) (.inr settled)

end Tree

end RelocExpr
