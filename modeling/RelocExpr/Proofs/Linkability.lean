import RelocExpr.Proofs.LookupOrder

/-!
# Which expressions can be linked

What a strict evaluation brings to an address or to an external value can be linked, but for
`TYPE`, which the linker does not know.  Directly over a literal or a symbol it has been
replaced by a tag.  Anywhere else it is applied beforehand, so its operand must have an
absolute value that depends on no external symbol.

The tree with its tags is looked at from both sides.  The evaluation gives it a value with
zero for external symbols.  Linking gives it the same value, or none if there is an external
symbol, or it stops at a `TYPE`.
-/

namespace RelocExpr

namespace Tree

variable {tree operand left right : Tree} {table : SymbolTable} {value : Address}
  {op : UnaryOp} {isByte external : Bool} {mode : EvaluationMode}

/-! ## Types that stay -/

/-- A `TYPE` over the tree has a tag: the tree is a literal or a symbol, or it is such a
`TYPE` itself. -/
def isTaggable : Tree → Bool
  | .address _ | .symbol _ => true
  | .unary .type operand => operand.isTaggable
  | .unary .. | .binary .. => false

/-- Some `TYPE` without a tag is over an external symbol, which is not directly under another
one, or over a relocatable value. -/
def BlocksLinking (table : SymbolTable) (tree : Tree) : Prop :=
  ∃ operand, .unary .type operand ∈ tree.subtrees ∧ operand.isTaggable = false ∧
    (operand.hasExternal table = true ∨
      ∃ value, operand.assess table = .ok value ∧ value.isAbsolute = false)

theorem blocksLinking_unary :
    (unary op operand).BlocksLinking table ↔
      (op = .type ∧ operand.isTaggable = false ∧
        (operand.hasExternal table = true ∨
          ∃ value, operand.assess table = .ok value ∧ value.isAbsolute = false)) ∨
      operand.BlocksLinking table := by
  constructor
  · rintro ⟨inner, member, stays⟩
    rcases List.mem_cons.1 member with same | below
    · cases same
      exact .inl ⟨rfl, stays⟩
    · exact .inr ⟨inner, below, stays⟩
  · rintro (⟨rfl, stays⟩ | ⟨inner, member, stays⟩)
    · exact ⟨operand, List.mem_cons_self .., stays⟩
    · exact ⟨inner, List.mem_cons_of_mem _ member, stays⟩

theorem blocksLinking_binary {binaryOp : BinaryOp} :
    (binary binaryOp left right).BlocksLinking table ↔
      left.BlocksLinking table ∨ right.BlocksLinking table := by
  constructor
  · rintro ⟨inner, member, stays⟩
    rcases List.mem_cons.1 member with same | below
    · cases same
    · rcases List.mem_append.1 below with inLeft | inRight
      · exact .inl ⟨inner, inLeft, stays⟩
      · exact .inr ⟨inner, inRight, stays⟩
  · rintro (⟨inner, member, stays⟩ | ⟨inner, member, stays⟩)
    · exact ⟨inner, List.mem_cons_of_mem _ (List.mem_append_left _ member), stays⟩
    · exact ⟨inner, List.mem_cons_of_mem _ (List.mem_append_right _ member), stays⟩

/-- Only `TYPE` over `TYPE` goes on. -/
theorem isTaggable_unary : (unary op operand).isTaggable = true ↔
    op = .type ∧ operand.isTaggable = true := by
  cases op <;> simp [isTaggable]

theorem exists_tagged_of_isTaggable (taggable : tree.isTaggable = true)
    (table : SymbolTable) : ∃ tag, (unary .type tree).tagged table = .address tag := by
  induction tree with
  | address value => exact ⟨_, rfl⟩
  | symbol ref => exact ⟨_, rfl⟩
  | unary op operand ih =>
      rcases isTaggable_unary.1 taggable with ⟨rfl, inner⟩
      rcases ih inner with ⟨tag, found⟩
      rw [tagged_type rfl, found]
      exact ⟨_, rfl⟩
  | binary op left right => cases taggable

theorem isTaggable_of_tagged (found : tree.tagged table = .address value) :
    tree.isTaggable = true := by
  induction tree generalizing value with
  | address | symbol => rfl
  | unary op operand ih =>
      rw [tagged] at found
      split at found
      · next type =>
          rw [isTaggable_unary]
          refine ⟨type, ?_⟩
          split at found
          · next inner => exact ih inner
          · next inner =>
              rw [eq_symbol_of_tagged inner]
              rfl
          · cases found
      · cases found
  | binary op left right => cases found

/-- An operator stays where it is unless it is a `TYPE` with a tag. -/
theorem tagged_of_not_isTaggable (stays : (unary op operand).isTaggable = false)
    (table : SymbolTable) :
    (unary op operand).tagged table = .unary op (operand.tagged table) := by
  rw [tagged]
  split
  · next type =>
      subst type
      cases found : operand.tagged table with
      | address value =>
          have taggable := isTaggable_unary.2 ⟨rfl, isTaggable_of_tagged found⟩
          rw [stays] at taggable
          cases taggable
      | symbol ref =>
          rw [eq_symbol_of_tagged found] at stays
          cases stays
      | _ => rfl
  · rfl

theorem typedRef?_of_not_isTaggable (stays : (unary op operand).isTaggable = false) :
    typedRef? op operand = none := by
  rw [typedRef?.eq_def]
  split
  · cases stays
  · rfl

theorem hasExternal_of_isTaggable (taggable : operand.isTaggable = true) :
    (unary .type operand).hasExternal table = false := by
  rcases exists_tagged_of_isTaggable taggable table with ⟨tag, found⟩
  rw [hasExternal, ← symbolRefs_tagged _ table, found]
  rfl

theorem not_blocksLinking_of_isTaggable (taggable : tree.isTaggable = true) :
    ¬ tree.BlocksLinking table := by
  induction tree with
  | address | symbol =>
      rintro ⟨operand, member, -⟩
      cases List.mem_singleton.1 member
  | unary op operand ih =>
      rcases isTaggable_unary.1 taggable with ⟨-, inner⟩
      rw [blocksLinking_unary]
      rintro (⟨-, stays, -⟩ | blocks)
      · rw [inner] at stays
        cases stays
      · exact ih inner blocks
  | binary op left right => cases taggable

/-! ## Values of evaluated trees -/

theorem eq_of_settle {operator : Operator} {result : Address}
    (settled : settle isByte operator result = .ok value) : value = result := by
  rw [settle] at settled
  split at settled
  · cases settled
  · exact (Except.ok.inj settled).symm

/-- A tree that comes to a value has no unknown symbols, and computes the value with zero for
the external ones. -/
theorem value_eq_ok {walk : Walk} (covers : table.Covers tree.symbolRefs)
    (found : tree.value isByte .strict { table, external } = (.ok value, walk)) :
    (∀ ref ∈ tree.symbolRefs, table.valueOf ref ≠ .unknown) ∧
      tree.compute table.standIn = .ok value ∧ walk.table = table := by
  induction tree generalizing external value walk with
  | address address =>
      cases found
      exact ⟨nofun, rfl, rfl⟩
  | symbol ref =>
      have mentioned := covers ref (List.mem_singleton_self ref)
      simp only [Tree.value, mentioned] at found
      cases known : table.valueOf ref with
      | unknown => simp [known] at found
      | _ =>
          rw [known] at found
          cases found
          refine ⟨?_, by rw [compute, SymbolTable.standIn, known]; rfl, rfl⟩
          intro other member
          rw [List.mem_singleton.1 member, known]
          simp
  | unary op operand ih =>
      rw [Tree.value] at found
      split at found
      · cases found
      · next inner later operandFound =>
          rcases Prod.mk.inj found with ⟨applied, rfl⟩
          rcases ih covers operandFound with ⟨settled, computed, same⟩
          refine ⟨settled, ?_, same⟩
          rw [compute, computed, eq_of_settle applied]
          rfl
  | binary op left right leftIH rightIH =>
      have leftCovers := covers.subset (List.subset_append_left ..)
      have rightCovers := covers.subset (List.subset_append_right ..)
      rw [Tree.value] at found
      split at found
      · cases found
      · next leftValue middle leftFound =>
          rcases leftIH leftCovers leftFound with ⟨leftSettled, leftComputed, rfl⟩
          split at found
          · cases found
          · next rightValue last rightFound =>
              rcases rightIH rightCovers rightFound with ⟨rightSettled, rightComputed, same⟩
              split at found
              · cases found
              · next result applied =>
                  rcases Prod.mk.inj found with ⟨settled, rfl⟩
                  refine ⟨?_, ?_, same⟩
                  · intro ref member
                    rcases List.mem_append.1 member with inLeft | inRight
                    · exact leftSettled ref inLeft
                    · exact rightSettled ref inRight
                  · rw [compute, leftComputed, rightComputed, eq_of_settle settled]
                    exact applied

/-- Without a value the evaluation of a tree fails, or it is put off. -/
theorem outcome_of_value {evaluation : Evaluation} {walk later : Walk}
    (found : tree.value isByte mode walk = (.error (.outcome evaluation), later)) :
    evaluation = .deferred ∨ evaluation = .undecided := by
  induction tree generalizing walk later with
  | address value => cases found
  | symbol ref =>
      simp only [Tree.value] at found
      split at found
      · cases found
      · cases found
      · split at found
        · cases found
        · cases found
          exact .inr rfl
  | unary op operand ih =>
      rw [Tree.value] at found
      split at found
      · next operandFound =>
          rcases Prod.mk.inj found with ⟨same, -⟩
          cases same
          exact ih operandFound
      · rcases Prod.mk.inj found with ⟨settled, -⟩
        cases eq_deferred_of_settle settled
        exact .inl rfl
  | binary op left right leftIH rightIH =>
      rw [Tree.value] at found
      split at found
      · next leftFound =>
          rcases Prod.mk.inj found with ⟨same, -⟩
          cases same
          exact leftIH leftFound
      · split at found
        · next rightFound =>
            rcases Prod.mk.inj found with ⟨same, -⟩
            cases same
            exact rightIH rightFound
        · split at found
          · cases found
          · rcases Prod.mk.inj found with ⟨settled, -⟩
            cases eq_deferred_of_settle settled
            exact .inl rfl

/-! ## Linking of evaluated trees -/

/-- The tree is linked, and has its value unless it depends on an external symbol. -/
def LinksWith (table : SymbolTable) (tree : Tree) (value : Address) : Prop :=
  ∃ operand, (tree.tagged table).linkIn table = .ok operand ∧
    operand.value? = if tree.hasExternal table then none else some value

theorem LinksWith.binary {binaryOp : BinaryOp} {leftValue rightValue : Address}
    (leftLinks : left.LinksWith table leftValue) (rightLinks : right.LinksWith table rightValue)
    (applied : binaryOp.apply leftValue rightValue = .ok value) :
    (binary binaryOp left right).LinksWith table value := by
  rcases leftLinks with ⟨leftOperand, leftLinked, leftKnown⟩
  rcases rightLinks with ⟨rightOperand, rightLinked, rightKnown⟩
  refine ⟨.applyBinary binaryOp leftOperand rightOperand, ?_, ?_⟩
  · simp only [tagged, linkIn, leftLinked, rightLinked]
  · have external : (Tree.binary binaryOp left right).hasExternal table =
        (left.hasExternal table || right.hasExternal table) :=
      table.anyExternal_append left.looseRefs right.looseRefs
    rw [LinkOperand.applyBinary, external]
    simp only [leftKnown, rightKnown]
    cases left.hasExternal table with
    | true => rfl
    | false =>
        cases right.hasExternal table with
        | true => rfl
        | false => simp [applied, Except.toOption]

/-- The unary plus is left out, and the linker knows the other operators but `TYPE`. -/
theorem LinksWith.unary (other : op ≠ .type) (notNul : op ≠ .nul)
    (links : operand.LinksWith table value) :
    (unary op operand).LinksWith table (op.apply value) := by
  rcases links with ⟨linked, found, known⟩
  have external : (Tree.unary op operand).hasExternal table = operand.hasExternal table := by
    rw [hasExternal, looseRefs, typedRef?_of_ne other, hasExternal]
  rw [LinksWith, external, tagged, if_neg other]
  by_cases identity : op = .plus
  · subst identity
    refine ⟨linked, ?_, known⟩
    rw [linkIn, found]
    rfl
  · have coded : ∃ code, op.linkCode = some code := by
      cases op with
      | plus | type | nul => contradiction
      | minus | not | high | low => exact ⟨_, rfl⟩
    rcases coded with ⟨code, coded⟩
    refine ⟨⟨linked.items ++ [.operator code], linked.value?.map op.apply⟩, ?_, ?_⟩
    · simp only [linkIn, found, if_neg identity, LinkOperand.applyUnary, coded]
    · simp only [known]
      cases operand.hasExternal table <;> rfl

/-- A `TYPE` with a tag is the tag. -/
theorem LinksWith.type_of_isTaggable (taggable : operand.isTaggable = true)
    (assessed : (Tree.unary .type operand).assess table = .ok value) :
    (Tree.unary .type operand).LinksWith table value := by
  rcases exists_tagged_of_isTaggable taggable table with ⟨tag, found⟩
  have computed := (Tree.unary .type operand).compute_tagged table
  rw [assessed, found] at computed
  cases computed
  rw [LinksWith, found, hasExternal_of_isTaggable taggable]
  exact ⟨_, rfl, rfl⟩

/-- A `TYPE` that stays is applied to an absolute value. -/
theorem LinksWith.type (stays : (Tree.unary .type operand).isTaggable = false)
    (links : operand.LinksWith table value) (free : operand.hasExternal table = false)
    (absolute : value.isAbsolute = true) :
    (Tree.unary .type operand).LinksWith table (UnaryOp.type.apply value) := by
  rcases links with ⟨linked, found, known⟩
  have untyped := typedRef?_of_not_isTaggable stays
  have external : (Tree.unary .type operand).hasExternal table = false := by
    rw [hasExternal, looseRefs, untyped]
    exact free
  rw [LinksWith, external, tagged_of_not_isTaggable stays]
  simp only [free, Bool.false_eq_true, if_false] at known
  refine ⟨.known (UnaryOp.type.apply value), ?_, rfl⟩
  simp only [linkIn, found, LinkOperand.applyUnary, UnaryOp.linkCode, known, absolute]
  rfl

/-- Over another value it cannot be linked. -/
theorem LinksWith.notLinkable_type (stays : (Tree.unary .type operand).isTaggable = false)
    (links : operand.LinksWith table value)
    (blocked : operand.hasExternal table = true ∨ value.isAbsolute = false) :
    ((Tree.unary .type operand).tagged table).linkIn table =
      .error (.notLinkable (.unary .type)) := by
  rcases links with ⟨linked, found, known⟩
  rw [tagged_of_not_isTaggable stays]
  simp only [linkIn, found, LinkOperand.applyUnary, UnaryOp.linkCode, known]
  cases external : operand.hasExternal table with
  | true => rfl
  | false =>
      rcases blocked with depends | relocatable
      · rw [external] at depends
        cases depends
      · simp only [Bool.false_eq_true, if_false, relocatable]
        rfl

/-- An evaluated tree is linked with its value, or it stops at a `TYPE` that blocks it. -/
theorem linksWith_or_blocksLinking (freeOfNul : tree.FreeOfNul)
    (settled : ∀ ref ∈ tree.looseRefs, table.valueOf ref ≠ .unknown)
    (assessed : tree.assess table = .ok value) :
    (tree.LinksWith table value ∧ ¬ tree.BlocksLinking table) ∨
      ((tree.tagged table).linkIn table = .error (.notLinkable (.unary .type)) ∧
        tree.BlocksLinking table) := by
  induction tree generalizing value with
  | address address =>
      cases assessed
      exact .inl ⟨⟨_, rfl, rfl⟩, not_blocksLinking_of_isTaggable rfl⟩
  | symbol ref =>
      left
      refine ⟨?_, not_blocksLinking_of_isTaggable rfl⟩
      have known := settled ref (List.mem_singleton_self ref)
      cases assessed
      simp only [LinksWith, tagged, linkIn, hasExternal, looseRefs, SymbolTable.anyExternal,
        SymbolTable.standIn]
      cases found : table.valueOf ref with
      | known address => exact ⟨_, rfl, by simp [LinkOperand.known, SymbolValue.address?, found]⟩
      | external => exact ⟨_, rfl, by simp [LinkOperand.external, found]⟩
      | unknown => exact absurd found known
  | unary op operand ih =>
      cases taggable : (unary op operand).isTaggable with
      | true =>
          rcases isTaggable_unary.1 taggable with ⟨rfl, inner⟩
          exact .inl ⟨.type_of_isTaggable inner assessed, not_blocksLinking_of_isTaggable taggable⟩
      | false =>
          have untyped := typedRef?_of_not_isTaggable taggable
          rw [looseRefs, untyped] at settled
          rw [assess, untyped] at assessed
          rcases Except.map_eq_ok_iff.1 assessed with ⟨inner, operandAssessed, rfl⟩
          rw [blocksLinking_unary]
          rcases ih freeOfNul.2 settled operandAssessed with ⟨links, free⟩ | ⟨fails, blocks⟩
          · by_cases type : op = .type
            · subst type
              by_cases blocked : operand.hasExternal table = true ∨ inner.isAbsolute = false
              · right
                refine ⟨links.notLinkable_type taggable blocked, .inl ⟨rfl, taggable, ?_⟩⟩
                exact blocked.imp_right fun relocatable => ⟨inner, operandAssessed, relocatable⟩
              · left
                rw [not_or, Bool.not_eq_true, Bool.not_eq_false] at blocked
                refine ⟨links.type taggable blocked.1 blocked.2, ?_⟩
                rintro (⟨-, -, external | ⟨other, otherAssessed, relocatable⟩⟩ | blocks)
                · rw [blocked.1] at external
                  cases external
                · rw [operandAssessed] at otherAssessed
                  cases otherAssessed
                  rw [blocked.2] at relocatable
                  cases relocatable
                · exact free blocks
            · left
              refine ⟨links.unary type freeOfNul.1, ?_⟩
              rintro (⟨same, -⟩ | blocks)
              · exact type same
              · exact free blocks
          · right
            refine ⟨?_, .inr blocks⟩
            rw [tagged_of_not_isTaggable taggable]
            simp only [linkIn, fails]
  | binary op left right leftIH rightIH =>
      rcases BinaryOp.applyResults_eq_ok_iff.1 assessed with
        ⟨leftValue, rightValue, leftAssessed, rightAssessed, applied⟩
      have leftSettled (ref : SymbolRef) (member : ref ∈ left.looseRefs) :=
        settled ref (List.mem_append_left _ member)
      have rightSettled (ref : SymbolRef) (member : ref ∈ right.looseRefs) :=
        settled ref (List.mem_append_right _ member)
      rw [blocksLinking_binary, tagged]
      rcases leftIH freeOfNul.1 leftSettled leftAssessed with
        ⟨leftLinks, leftFree⟩ | ⟨fails, blocks⟩
      · rcases rightIH freeOfNul.2 rightSettled rightAssessed with
          ⟨rightLinks, rightFree⟩ | ⟨fails, blocks⟩
        · exact .inl ⟨leftLinks.binary rightLinks applied, not_or.2 ⟨leftFree, rightFree⟩⟩
        · right
          refine ⟨?_, .inr blocks⟩
          rcases leftLinks with ⟨linked, found, -⟩
          simp only [linkIn, found, fails]
      · right
        refine ⟨?_, .inl blocks⟩
        simp only [linkIn, fails]

end Tree

/-! ## Expressions -/

namespace Expression

variable {expression : Expression} {tree : Tree} {table later : SymbolTable}
  {outcome : Evaluation}

/-- When a strict evaluation comes to an address or to an external value, the symbols that are
not directly under a `TYPE` have values, and so has the tree. -/
theorem exists_assess_of_evaluate (ordered : expression.isPostfix = true)
    (parts : expression.parts = tree.postOrder) (freeOfNul : tree.FreeOfNul)
    (evaluated : expression.evaluate .strict table = (.ok outcome, later))
    (valued : outcome = .external ∨ ∃ address, outcome = .resolved address) :
    later.Covers tree.symbolRefs ∧ (∀ ref ∈ tree.looseRefs, later.valueOf ref ≠ .unknown) ∧
      ∃ value, tree.assess later = .ok value := by
  have mentioned : later = table.mentionAll tree.symbolRefs := by
    rw [← symbolRefs_of_postOrder parts, ← evaluate_strict_snd, evaluated]
  have covers : later.Covers tree.symbolRefs := by
    rw [mentioned]
    exact table.covers_mentionAll tree.symbolRefs
  refine ⟨covers, ?_⟩
  have typedCovers := covers.subset tree.typedRefs_subset
  have looseCovers : later.Covers (tree.tagged later).symbolRefs := by
    rw [tree.symbolRefs_tagged]
    exact covers.subset tree.looseRefs_subset
  rw [evaluate, symbolRefs_of_postOrder parts, ← mentioned,
    run_postOrder ordered parts freeOfNul (.of_ne_lookahead (by decide)), Tree.run,
    Tree.replaceTypes_of_covers typedCovers (.inl rfl)] at evaluated
  simp only at evaluated
  cases found : (tree.tagged later).value expression.isByte .strict ⟨later, false⟩ with
  | mk result walk =>
      rw [found] at evaluated
      cases result with
      | error halt =>
          -- Then the evaluation fails or is put off.
          cases halt with
          | error error => cases evaluated
          | outcome evaluation =>
              cases evaluated
              rcases Tree.outcome_of_value found with rfl | rfl <;> simp at valued
      | ok value =>
          rcases Tree.value_eq_ok looseCovers found with ⟨settled, computed, -⟩
          rw [tree.symbolRefs_tagged] at settled
          rw [tree.compute_tagged] at computed
          exact ⟨settled, value, computed⟩

/-- After such an evaluation the expression is linked, unless a `TYPE` blocks it. -/
theorem linkItems_fst_cases (ordered : expression.isPostfix = true)
    (parts : expression.parts = tree.postOrder) (freeOfNul : tree.FreeOfNul)
    (evaluated : expression.evaluate .strict table = (.ok outcome, later))
    (valued : outcome = .external ∨ ∃ address, outcome = .resolved address) :
    ((∃ items, (expression.linkItems later).1 = .ok items) ∧ ¬ tree.BlocksLinking later) ∨
      ((expression.linkItems later).1 = .error (.error (.notLinkable (.unary .type))) ∧
        tree.BlocksLinking later) := by
  rcases exists_assess_of_evaluate ordered parts freeOfNul evaluated valued with
    ⟨covers, settled, value, assessed⟩
  rw [linkItems_fst_of_covers ordered parts covers]
  rcases Tree.linksWith_or_blocksLinking freeOfNul settled assessed with
    ⟨⟨operand, linked, -⟩, free⟩ | ⟨fails, blocks⟩
  · left
    rw [linked]
    exact ⟨⟨_, rfl⟩, free⟩
  · right
    rw [fails]
    exact ⟨rfl, blocks⟩

/-- An expression that a strict evaluation brings to an address or to an external value can
be linked afterwards, unless there is a `TYPE` that the linker would have to apply.  It fails
exactly when a `TYPE` without a tag has an operand that depends on an external symbol, other
than directly under another `TYPE`, or that is relocatable. -/
theorem linkItems_of_evaluate (ordered : expression.Ordered)
    (evaluated : expression.evaluate .strict table = (.ok outcome, later))
    (valued : outcome = .external ∨ ∃ address, outcome = .resolved address) :
    let linked := (expression.linkItems later).1
    ((∃ items, linked = .ok items) ∨
        linked = .error (.error (.notLinkable (.unary .type)))) ∧
      ((∃ fault, linked = .error fault) ↔
        ∃ tree : Tree, expression.parts = tree.postOrder ∧ tree.BlocksLinking later) := by
  intro linked
  have blocked (tree : Tree) (parts : expression.parts = tree.postOrder)
      (blocks : tree.BlocksLinking later) :
      linked = .error (.error (.notLinkable (.unary .type))) := by
    have freeOfNul : tree.FreeOfNul := by
      apply Tree.FreeOfNul.of_not_mem_postOrder
      rw [← parts]
      exact ordered.nul_not_mem_parts
    rcases linkItems_fst_cases ordered.isPostfix parts freeOfNul evaluated valued with
      ⟨-, free⟩ | ⟨fails, -⟩
    · exact absurd blocks free
    · exact fails
  have linkedOrBlocked : (∃ items, linked = .ok items) ∨
      ∃ tree : Tree, expression.parts = tree.postOrder ∧ tree.BlocksLinking later := by
    rcases ordered.parts_cases with
      empty | ⟨content, literal, single⟩ | ⟨tree, freeOfNul, parts⟩
    · left
      simp only [linked, linkItems, ordered.isPostfix, empty]
      exact ⟨_, rfl⟩
    · -- A string has no value.
      simp only [evaluate, run, ordered.isPostfix, single] at evaluated
      cases evaluated
    · rcases linkItems_fst_cases ordered.isPostfix parts freeOfNul evaluated valued with
        ⟨items, -⟩ | ⟨-, blocks⟩
      · exact .inl items
      · exact .inr ⟨tree, parts, blocks⟩
  constructor
  · rcases linkedOrBlocked with items | ⟨tree, parts, blocks⟩
    · exact .inl items
    · exact .inr (blocked tree parts blocks)
  · constructor
    · rintro ⟨fault, fails⟩
      rcases linkedOrBlocked with ⟨items, succeeds⟩ | blocks
      · rw [fails] at succeeds
        cases succeeds
      · exact blocks
    · rintro ⟨tree, parts, blocks⟩
      exact ⟨_, blocked tree parts blocks⟩

end Expression

/-- In `TYPE (START - TYPE X) + X` the inner `TYPE` has a tag, and the outer one is over a
relocatable value.  So the sum is an external value that cannot be linked. -/
theorem linkItems_of_evaluate_of_relocatable_operand :
    let start : SymbolRef := { name := "START", external := false, root := false }
    let imported : SymbolRef := { name := "X", external := false, root := false }
    let expression : Expression :=
      { source := "TYPE (START - TYPE X) + X"
        parts := [.symbol start, .symbol imported, .operator (.unary .type),
          .operator (.binary .minus), .operator (.unary .type), .symbol imported,
          .operator (.binary .plus)]
        isByte := false
        isPostfix := true }
    let table : SymbolTable :=
      { entries := [("START", .known ⟨.code, 0x100⟩), ("X", .external)] }
    expression.evaluate .strict table = (.ok .external, table) ∧
      (expression.linkItems table).1 = .error (.error (.notLinkable (.unary .type))) := by
  intro start imported expression table
  have ordered : expression.Ordered :=
    @Expression.Ordered.toPostfix
      { expression with
        parts := [.operator (.unary .type), .opening, .symbol start,
          .operator (.binary .minus), .operator (.unary .type), .symbol imported, .closing,
          .operator (.binary .plus), .symbol imported]
        isPostfix := false } _ rfl rfl
  have evaluated : expression.evaluate .strict table = (.ok .external, table) := by decide
  rcases expression.linkItems_of_evaluate ordered evaluated (.inl rfl) with
    ⟨succeeds | fails, exactly⟩
  · -- The difference is relocatable.
    let difference : Tree := .binary .minus (.symbol start) (.unary .type (.symbol imported))
    let tree : Tree := .binary .plus (.unary .type difference) (.symbol imported)
    have blocks : tree.BlocksLinking table :=
      ⟨difference, by decide, rfl, .inr ⟨⟨.code, 0x80⟩, by decide, rfl⟩⟩
    rcases exactly.2 ⟨tree, rfl, blocks⟩ with ⟨fault, fails⟩
    rcases succeeds with ⟨items, succeeds⟩
    rw [fails] at succeeds
    cases succeeds
  · exact ⟨evaluated, fails⟩

end RelocExpr
