import RelocExpr.Proofs.Externals
import RelocExpr.Proofs.Linking
import RelocExpr.Proofs.Registration

/-!
# Symbols in the order of their lookups

Linking an expression looks up the symbols directly under a `TYPE` and then the others, and
mentions each of them only where it is looked up.  A strict evaluation has mentioned all of
them by then.  This makes a difference when a symbol without a value is looked up before
the reference that marks it as external: an evaluation before makes it external, and
without one linking finds it unknown.
-/

namespace RelocExpr

/-! ## Early references -/

namespace SymbolTable

variable {table : SymbolTable} {refs before after first second : List SymbolRef}
  {ref : SymbolRef}

/-- The name of a reference has no value in the table, and only references after it mark the
name as external. -/
def IsEarly (table : SymbolTable) (refs : List SymbolRef) (ref : SymbolRef) : Prop :=
  ∃ before after, refs = before ++ ref :: after ∧ table.valueOf ref = .unknown ∧
    ¬ table.Marks (before ++ [ref]) (table.qualifiedName ref) ∧
    table.Marks after (table.qualifiedName ref)

/-- A value that is found where the reference is looked up, and is another one when all
references have been looked up, makes the reference an early one. -/
theorem isEarly_of_valueOf_ne (split : refs = before ++ ref :: after)
    (differs : (table.mentionAll (before ++ [ref])).valueOf ref ≠
      (table.mentionAll refs).valueOf ref) : table.IsEarly refs ref := by
  have marked : table.Marks refs (table.qualifiedName ref) ↔
      table.Marks (before ++ [ref]) (table.qualifiedName ref) ∨
        table.Marks after (table.qualifiedName ref) := by
    rw [split, List.append_cons before ref after, marks_append]
  simp only [valueOf_mentionAll, marked] at differs
  by_cases unknown : table.valueOf ref = .unknown
  · by_cases inTime : table.Marks (before ++ [ref]) (table.qualifiedName ref)
    · simp [unknown, inTime] at differs
    · by_cases late : table.Marks after (table.qualifiedName ref)
      · exact ⟨before, after, split, unknown, inTime, late⟩
      · simp [unknown, inTime, late] at differs
  · simp [unknown] at differs

theorem valueOf_mentionAll_congr (same : ∀ ref, ref ∈ first ↔ ref ∈ second)
    (other : SymbolRef) :
    (table.mentionAll first).valueOf other = (table.mentionAll second).valueOf other := by
  have marked : table.Marks first (table.qualifiedName other) ↔
      table.Marks second (table.qualifiedName other) := by
    simp only [Marks, same]
  simp only [valueOf_mentionAll, marked]

end SymbolTable

/-- A unary operator fails only because it cannot be linked. -/
theorem LinkOperand.error_of_applyUnary {op : UnaryOp} {operand : LinkOperand}
    {error : ExpressionError} (failed : operand.applyUnary op = .error error) :
    error = .notLinkable (.unary op) := by
  rw [applyUnary] at failed
  split at failed
  · cases failed
  · split at failed
    · split at failed
      · cases failed
      · exact (Except.error.inj failed).symm
    · exact (Except.error.inj failed).symm

namespace Tree

variable {tree : Tree} {table later : SymbolTable} {done all : List SymbolRef}

/-- The symbols of a tree in the order in which linking looks them up. -/
def lookupOrder (tree : Tree) : List SymbolRef :=
  tree.typedRefs ++ tree.looseRefs

theorem mem_lookupOrder {ref : SymbolRef} :
    ref ∈ tree.lookupOrder ↔ ref ∈ tree.symbolRefs := by
  rw [lookupOrder, List.mem_append, mem_symbolRefs_iff]

theorem isEarly_of_lookup {before after : List SymbolRef} {ref : SymbolRef}
    (split : tree.lookupOrder = before ++ ref :: after)
    (differs : (table.mentionAll (before ++ [ref])).valueOf ref ≠
      (table.mentionAll tree.symbolRefs).valueOf ref) :
    table.IsEarly tree.lookupOrder ref := by
  apply SymbolTable.isEarly_of_valueOf_ne split
  rwa [SymbolTable.valueOf_mentionAll_congr fun _ => mem_lookupOrder]

/-! ## Linking with the values of a later table -/

/-- The items of a tree whose symbols have the values of a table. -/
def linkIn (table : SymbolTable) : Tree → Except ExpressionError LinkOperand
  | .address value => .ok (.known value)
  | .symbol ref =>
      match table.valueOf ref with
      | .known value => .ok (.known value)
      | .external => .ok (.external (table.qualifiedName ref))
      | .unknown => .error (.unknownSymbol (table.qualifiedName ref))
  | .unary op operand =>
      match operand.linkIn table with
      | .error error => .error error
      | .ok operand => if op = .plus then .ok operand else LinkOperand.applyUnary op operand
  | .binary op left right =>
      match left.linkIn table with
      | .error error => .error error
      | .ok left =>
          match right.linkIn table with
          | .error error => .error error
          | .ok right => .ok (.applyBinary op left right)

/-- After some references have been looked up, linking comes to what it does with the values
of a later table, and mentions the symbols of the tree if it succeeds. -/
structure LinksAlike (table later : SymbolTable) (done : List SymbolRef) (tree : Tree) :
    Prop where
  result : (tree.link (table.mentionAll done)).1 = tree.linkIn later
  mentions : ∀ operand, tree.linkIn later = .ok operand →
    (tree.link (table.mentionAll done)).2 = table.mentionAll (done ++ tree.symbolRefs)

/-- Linking stops at a symbol that is unknown where it is looked up, though a later table has
a value for it. -/
def StopsEarly (table later : SymbolTable) (done : List SymbolRef) (tree : Tree) : Prop :=
  ∃ before ref after last, tree.symbolRefs = before ++ ref :: after ∧
    (table.mentionAll (done ++ before ++ [ref])).valueOf ref = .unknown ∧
    later.valueOf ref ≠ .unknown ∧
    tree.link (table.mentionAll done) =
      (.error (.unknownSymbol (table.qualifiedName ref)), last)

namespace LinksAlike

variable {op : UnaryOp} {binaryOp : BinaryOp} {operand left right : Tree}

theorem link_eq {linked : LinkOperand} (alike : tree.LinksAlike table later done)
    (found : tree.linkIn later = .ok linked) :
    tree.link (table.mentionAll done) =
      (.ok linked, table.mentionAll (done ++ tree.symbolRefs)) :=
  Prod.ext (alike.result.trans found) (alike.mentions linked found)

theorem exists_link_eq {error : ExpressionError} (alike : tree.LinksAlike table later done)
    (failed : tree.linkIn later = .error error) :
    ∃ last, tree.link (table.mentionAll done) = (.error error, last) :=
  ⟨_, Prod.ext (alike.result.trans failed) rfl⟩

theorem unary (alike : operand.LinksAlike table later done) :
    (unary op operand).LinksAlike table later done := by
  cases found : operand.linkIn later with
  | error error =>
      rcases alike.exists_link_eq found with ⟨last, stopped⟩
      constructor
      · simp only [link, stopped, linkIn, found]
      · intro applied linked
        simp only [linkIn, found] at linked
        cases linked
  | ok inner =>
      constructor
      · simp only [link, alike.link_eq found, linkIn, found]
      · intro applied linked
        simp only [link, alike.link_eq found, symbolRefs]

/-- The right tree is linked only when the left one has been. -/
theorem binary (leftAlike : left.LinksAlike table later done)
    (rightAlike : ∀ operand, left.linkIn later = .ok operand →
      right.LinksAlike table later (done ++ left.symbolRefs)) :
    (binary binaryOp left right).LinksAlike table later done := by
  cases leftFound : left.linkIn later with
  | error error =>
      rcases leftAlike.exists_link_eq leftFound with ⟨last, stopped⟩
      constructor
      · simp only [link, stopped, linkIn, leftFound]
      · intro applied linked
        simp only [linkIn, leftFound] at linked
        cases linked
  | ok leftOperand =>
      have rightAlike := rightAlike leftOperand leftFound
      cases rightFound : right.linkIn later with
      | error error =>
          rcases rightAlike.exists_link_eq rightFound with ⟨last, stopped⟩
          constructor
          · simp only [link, leftAlike.link_eq leftFound, stopped, linkIn, leftFound,
              rightFound]
          · intro applied linked
            simp only [linkIn, leftFound, rightFound] at linked
            cases linked
      | ok rightOperand =>
          constructor
          · simp only [link, leftAlike.link_eq leftFound, rightAlike.link_eq rightFound,
              linkIn, leftFound, rightFound]
          · intro applied linked
            simp only [link, leftAlike.link_eq leftFound, rightAlike.link_eq rightFound,
              symbolRefs, List.append_assoc]

end LinksAlike

namespace StopsEarly

variable {op : UnaryOp} {binaryOp : BinaryOp} {operand left right : Tree}

theorem unary (stops : operand.StopsEarly table later done) :
    (unary op operand).StopsEarly table later done := by
  rcases stops with ⟨before, ref, after, last, split, unknown, known, stopped⟩
  refine ⟨before, ref, after, last, split, unknown, known, ?_⟩
  simp only [link, stopped]

theorem binary_left (stops : left.StopsEarly table later done) :
    (binary binaryOp left right).StopsEarly table later done := by
  rcases stops with ⟨before, ref, after, last, split, unknown, known, stopped⟩
  refine ⟨before, ref, after ++ right.symbolRefs, last, ?_, unknown, known, ?_⟩
  · rw [symbolRefs, split, List.append_assoc, List.cons_append]
  · simp only [link, stopped]

theorem binary_right {leftOperand : LinkOperand} (alike : left.LinksAlike table later done)
    (leftFound : left.linkIn later = .ok leftOperand)
    (stops : right.StopsEarly table later (done ++ left.symbolRefs)) :
    (binary binaryOp left right).StopsEarly table later done := by
  rcases stops with ⟨before, ref, after, last, split, unknown, known, stopped⟩
  refine ⟨left.symbolRefs ++ before, ref, after, last, ?_, ?_, known, ?_⟩
  · rw [symbolRefs, split, List.append_assoc]
  · rwa [← List.append_assoc done]
  · simp only [link, alike.link_eq leftFound, stopped]

end StopsEarly

/-- What is found of a symbol is what the later table has, or it is not known yet. -/
theorem linksAlike_or_stopsEarly_symbol {ref : SymbolRef} (among : done ++ [ref] ⊆ all) :
    (symbol ref).LinksAlike table (table.mentionAll all) done ∨
      (symbol ref).StopsEarly table (table.mentionAll all) done := by
  have knows : (table.mentionAll all).Extends (table.mentionAll (done ++ [ref])) :=
    .mentionAll_of_subset among
  have looked : (table.mentionAll done).mention ref = table.mentionAll (done ++ [ref]) := by
    rw [SymbolTable.mentionAll_append]
    rfl
  have name (refs : List SymbolRef) :
      (table.mentionAll refs).qualifiedName ref = table.qualifiedName ref :=
    (SymbolTable.Extends.mentionAll table refs).qualifiedName ref
  by_cases unknown : (table.mentionAll (done ++ [ref])).valueOf ref = .unknown
  · by_cases never : (table.mentionAll all).valueOf ref = .unknown
    · left
      constructor
      · simp only [link, looked, unknown, linkIn, never, name]
      · intro operand linked
        simp only [link, looked, unknown, symbolRefs]
    · right
      refine ⟨[], ref, [], table.mentionAll (done ++ [ref]), rfl, ?_, never, ?_⟩
      · rwa [List.append_nil]
      · simp only [link, looked, unknown, name]
  · left
    constructor
    · simp only [link, looked, linkIn, knows.valueOf ref unknown, name]
      cases (table.mentionAll (done ++ [ref])).valueOf ref <;> rfl
    · intro operand linked
      simp only [link, looked, symbolRefs]
      cases (table.mentionAll (done ++ [ref])).valueOf ref <;> rfl

/-- Linking comes to what it does with the values of the later table, or it stops at a symbol
that is looked up too early. -/
theorem linksAlike_or_stopsEarly (table : SymbolTable)
    (among : done ++ tree.symbolRefs ⊆ all) :
    tree.LinksAlike table (table.mentionAll all) done ∨
      tree.StopsEarly table (table.mentionAll all) done := by
  induction tree generalizing done with
  | address value =>
      left
      constructor
      · rfl
      · intro operand linked
        rw [symbolRefs, List.append_nil]
        rfl
  | symbol ref => exact linksAlike_or_stopsEarly_symbol among
  | unary op operand ih =>
      rcases ih among with alike | stops
      · exact .inl alike.unary
      · exact .inr stops.unary
  | binary op left right leftIH rightIH =>
      have rightAmong : (done ++ left.symbolRefs) ++ right.symbolRefs ⊆ all := by
        rwa [List.append_assoc]
      have leftAmong := List.Subset.trans (List.subset_append_left ..) rightAmong
      rcases leftIH leftAmong with leftAlike | stops
      · rcases rightIH rightAmong with rightAlike | stops
        · exact .inl (leftAlike.binary fun _ _ => rightAlike)
        · cases found : left.linkIn (table.mentionAll all) with
          | error error =>
              -- The right tree is not come to.
              exact .inl (leftAlike.binary fun operand linked => by
                rw [found] at linked
                cases linked)
          | ok operand => exact .inr (stops.binary_right leftAlike found)
      · exact .inr stops.binary_left

/-- When all symbols of a tree have been mentioned, it is linked with their values. -/
theorem link_fst_of_covers (covers : table.Covers tree.symbolRefs) :
    (tree.link table).1 = tree.linkIn table := by
  have among : [] ++ tree.symbolRefs ⊆ tree.symbolRefs := List.Subset.refl _
  rcases linksAlike_or_stopsEarly table among with
    alike | ⟨before, ref, after, last, split, unknown, known, -⟩
  · have result := alike.result
    rwa [covers.mentionAll_eq] at result
  · have found := SymbolTable.Anticipates.of_covers covers before ref after split
    rw [List.nil_append, found] at unknown
    rw [covers.mentionAll_eq] at known
    exact absurd unknown known

/-- An unknown symbol is reported only if a table does not have its value. -/
theorem exists_unknown_of_linkIn {name : String}
    (failed : tree.linkIn table = .error (.unknownSymbol name)) :
    ∃ ref ∈ tree.symbolRefs, table.qualifiedName ref = name ∧ table.valueOf ref = .unknown := by
  induction tree with
  | address value => cases failed
  | symbol ref =>
      rw [linkIn] at failed
      split at failed
      · cases failed
      · cases failed
      · next unknown =>
          cases failed
          exact ⟨ref, List.mem_singleton_self ref, rfl, unknown⟩
  | unary op operand ih =>
      rw [linkIn] at failed
      split at failed
      · next inner =>
          cases failed
          exact ih inner
      · split at failed
        · cases failed
        · cases LinkOperand.error_of_applyUnary failed
  | binary op left right leftIH rightIH =>
      rw [linkIn] at failed
      split at failed
      · next inner =>
          cases failed
          rcases leftIH inner with ⟨ref, member, unknown⟩
          exact ⟨ref, List.mem_append_left _ member, unknown⟩
      · split at failed
        · next inner =>
            cases failed
            rcases rightIH inner with ⟨ref, member, unknown⟩
            exact ⟨ref, List.mem_append_right _ member, unknown⟩
        · cases failed

end Tree

/-! ## Expressions -/

namespace Expression

variable {expression : Expression} {tree : Tree} {table later : SymbolTable}

/-- The items of an operand, followed by the one that stores it. -/
def storing (expression : Expression) (linked : Except ExpressionError LinkOperand) :
    Except Fault (List LinkItem) :=
  (linked.map fun operand => operand.items ++ [.store expression.isByte]).mapError .error

theorem storing_error (expression : Expression) (error : ExpressionError) :
    expression.storing (.error error) = .error (.error error) := rfl

/-- When each symbol directly under a `TYPE` is found with the value of a later table, the
tree with the tags of that table is linked. -/
theorem linkItems_fst_of_anticipates (ordered : expression.isPostfix = true)
    (parts : expression.parts = tree.postOrder)
    (anticipates : table.Anticipates later tree.typedRefs) :
    (expression.linkItems table).1 =
      expression.storing
        ((tree.tagged later).link (table.mentionAll tree.typedRefs)).1 := by
  rw [linkItems_postOrder ordered parts, Tree.replaceTypes_eq_tagged anticipates (.inl rfl)]
  simp only
  cases (tree.tagged later).link (table.mentionAll tree.typedRefs) with
  | mk outcome last => cases outcome <;> rfl

/-- When all symbols of an expression have been mentioned, it is linked with their tags and
their values. -/
theorem linkItems_fst_of_covers (ordered : expression.isPostfix = true)
    (parts : expression.parts = tree.postOrder) (covers : table.Covers tree.symbolRefs) :
    (expression.linkItems table).1 =
      expression.storing ((tree.tagged table).linkIn table) := by
  have typedCovers := covers.subset tree.typedRefs_subset
  have looseCovers : table.Covers (tree.tagged table).symbolRefs := by
    rw [tree.symbolRefs_tagged]
    exact covers.subset tree.looseRefs_subset
  rw [linkItems_fst_of_anticipates ordered parts (.of_covers typedCovers),
    typedCovers.mentionAll_eq, Tree.link_fst_of_covers looseCovers]

/-- A symbol is not reported as unknown by a table that knows of it. -/
theorem storing_ne_unknownSymbol {ref : SymbolRef} (known : table.valueOf ref ≠ .unknown) :
    expression.storing (tree.linkIn table) ≠
      .error (.error (.unknownSymbol (table.qualifiedName ref))) := by
  intro same
  cases linked : tree.linkIn table with
  | ok operand =>
      rw [linked] at same
      cases same
  | error error =>
      rw [linked] at same
      cases same
      rcases Tree.exists_unknown_of_linkIn linked with ⟨other, -, name, unknown⟩
      rw [SymbolTable.valueOf, name] at unknown
      exact known unknown

/-- Linking comes to what it does when all symbols have been mentioned, or some reference is
an early one.  Then it is directly under a `TYPE`, or linking fails at it. -/
theorem linkItems_fst_eq_or_early (ordered : expression.isPostfix = true)
    (parts : expression.parts = tree.postOrder) (table : SymbolTable) :
    let later := table.mentionAll tree.symbolRefs
    (expression.linkItems later).1 = (expression.linkItems table).1 ∨
      (∃ ref ∈ tree.typedRefs, table.IsEarly tree.lookupOrder ref) ∨
      ∃ ref ∈ tree.looseRefs, table.IsEarly tree.lookupOrder ref ∧
        (expression.linkItems table).1 =
          .error (.error (.unknownSymbol (table.qualifiedName ref))) ∧
        (expression.linkItems later).1 ≠ (expression.linkItems table).1 := by
  intro later
  have laterEq : (expression.linkItems later).1 =
      expression.storing ((tree.tagged later).linkIn later) :=
    linkItems_fst_of_covers ordered parts (table.covers_mentionAll tree.symbolRefs)
  by_cases anticipates : table.Anticipates later tree.typedRefs
  · have tableEq := linkItems_fst_of_anticipates ordered parts anticipates
    have looseRefs := tree.symbolRefs_tagged later
    have among : tree.typedRefs ++ (tree.tagged later).symbolRefs ⊆ tree.symbolRefs := by
      rw [looseRefs]
      intro ref member
      exact Tree.mem_lookupOrder.1 member
    rcases Tree.linksAlike_or_stopsEarly table among with
      alike | ⟨before, ref, after, last, split, unknown, known, stopped⟩
    · left
      rw [laterEq, tableEq, alike.result]
    · right
      right
      rw [looseRefs] at split
      have member : ref ∈ tree.looseRefs := by simp [split]
      have lookup : tree.lookupOrder = tree.typedRefs ++ before ++ ref :: after := by
        rw [Tree.lookupOrder, split, List.append_assoc]
      have early : table.IsEarly tree.lookupOrder ref := by
        apply Tree.isEarly_of_lookup lookup
        rw [unknown]
        exact Ne.symm known
      have fails : (expression.linkItems table).1 =
          .error (.error (.unknownSymbol (table.qualifiedName ref))) := by
        rw [tableEq, stopped, storing_error]
      have name : later.qualifiedName ref = table.qualifiedName ref :=
        (SymbolTable.Extends.mentionAll ..).qualifiedName ref
      refine ⟨ref, member, early, fails, ?_⟩
      rw [laterEq, fails, ← name]
      exact storing_ne_unknownSymbol known
  · right
    left
    simp only [SymbolTable.Anticipates, not_forall] at anticipates
    rcases anticipates with ⟨before, ref, after, split, differs⟩
    have member : ref ∈ tree.typedRefs := by simp [split]
    have lookup : tree.lookupOrder = before ++ ref :: (after ++ tree.looseRefs) := by
      rw [Tree.lookupOrder, split, List.append_assoc, List.cons_append]
    exact ⟨ref, member, Tree.isEarly_of_lookup lookup differs⟩

/-- Linking comes to the same before and after a strict evaluation, unless some reference is
an early one among the lookups.  Then it is directly under a `TYPE`, or else linking without
the evaluation fails at it, though after the evaluation it does not. -/
theorem linkItems_after_evaluate (ordered : expression.Ordered) (table : SymbolTable) :
    let direct := (expression.linkItems table).1
    let evaluated := (expression.linkItems (expression.evaluate .strict table).2).1
    evaluated = direct ∨
      ∃ tree : Tree, expression.parts = tree.postOrder ∧
        ((∃ ref ∈ tree.typedRefs, table.IsEarly tree.lookupOrder ref) ∨
          ∃ ref ∈ tree.looseRefs, table.IsEarly tree.lookupOrder ref ∧
            direct = .error (.error (.unknownSymbol (table.qualifiedName ref))) ∧
            evaluated ≠ direct) := by
  intro direct evaluated
  rcases ordered.parts_cases with
    empty | ⟨content, literal, single⟩ | ⟨tree, freeOfNul, parts⟩
  · left
    simp only [evaluated, direct, linkItems, ordered.isPostfix, empty]
    rfl
  · left
    simp only [evaluated, direct, linkItems, ordered.isPostfix, single]
    rfl
  · have mentioned : (expression.evaluate .strict table).2 =
        table.mentionAll tree.symbolRefs := by
      rw [evaluate_strict_snd, symbolRefs_of_postOrder parts]
    simp only [evaluated, direct, mentioned]
    rcases linkItems_fst_eq_or_early ordered.isPostfix parts table with same | early
    · exact .inl same
    · exact .inr ⟨tree, parts, early⟩

end Expression

/-- Inside the module `IO` the references of `:foo + FOO##` are to one name.  Without the
evaluation the first one is unknown, so it is an early one. -/
theorem linkItems_after_evaluate_of_root_first :
    let root : SymbolRef := { name := "foo", external := false, root := true }
    let marked : SymbolRef := { name := "FOO", external := true, root := false }
    let expression : Expression :=
      { source := ":foo + FOO##"
        parts := [.symbol root, .symbol marked, .operator (.binary .plus)]
        isByte := false
        isPostfix := true }
    let table : SymbolTable := { moduleName := some "IO" }
    ∃ (tree : Tree) (ref : SymbolRef), expression.parts = tree.postOrder ∧
      ref ∈ tree.looseRefs ∧ table.IsEarly tree.lookupOrder ref ∧
      table.qualifiedName ref = "FOO" := by
  intro root marked expression table
  have ordered : expression.Ordered :=
    @Expression.Ordered.toPostfix
      { expression with
        parts := [.symbol root, .operator (.binary .plus), .symbol marked]
        isPostfix := false } _ rfl rfl
  rcases expression.linkItems_after_evaluate ordered table with
    same | ⟨tree, parts, ⟨ref, member, -⟩ | ⟨ref, member, early, fails, -⟩⟩
  · exact absurd same (by decide +kernel)
  · rcases Tree.exists_postOrder_of_mem_typedRefs member with ⟨before, after, order⟩
    have typed : .operator (.unary .type) ∈ expression.parts := by simp [parts, order]
    exact absurd typed (by decide)
  · have unknown : (expression.linkItems table).1 = .error (.error (.unknownSymbol "FOO")) := by
      decide +kernel
    rw [unknown] at fails
    refine ⟨tree, ref, parts, member, early, ?_⟩
    injection fails with fault
    injection fault with error
    injection error with name
    exact name.symm

/-- In `FOO + FOO##` the plain reference comes before the marked one.  The sum evaluates to
an external value, and it is linked after that, but not before.  With the marked reference
first it is linked at once.  Under a `TYPE` the plain reference has the tag of an unknown
symbol beside an item for the external one. -/
theorem linkItems_of_plain_first :
    let plain : SymbolRef := { name := "FOO", external := false, root := false }
    let marked : SymbolRef := { name := "FOO", external := true, root := false }
    let raw : Expression :=
      { source := "FOO + FOO##"
        parts := [.symbol plain, .operator (.binary .plus), .symbol marked]
        isByte := false
        isPostfix := false }
    let expression (parts : List Part) : Expression :=
      { source := "FOO + FOO##", parts, isByte := false, isPostfix := true }
    let sum := expression [.symbol plain, .symbol marked, .operator (.binary .plus)]
    let swapped := expression [.symbol marked, .symbol plain, .operator (.binary .plus)]
    let typed := expression
      [.symbol plain, .operator (.unary .type), .symbol marked, .operator (.binary .plus)]
    let later : SymbolTable := { entries := [("FOO", .external)] }
    let items : List LinkItem := [.external "FOO", .external "FOO", .operator 8, .store false]
    Expression.read {} false "FOO + FOO##" = .ok raw ∧ raw.toPostfix = (.ok (), sum) ∧
      (sum.linkItems {}).1 = .error (.error (.unknownSymbol "FOO")) ∧
      sum.evaluate .strict {} = (.ok .external, later) ∧
      (sum.linkItems (sum.evaluate .strict {}).2).1 = .ok items ∧
      (swapped.linkItems {}).1 = .ok items ∧
      (typed.linkItems {}).1 =
        .ok [.address (.absolute 0), .external "FOO", .operator 8, .store false] ∧
      (typed.linkItems (typed.evaluate .strict {}).2).1 =
        .ok [.address (.absolute 0x80), .external "FOO", .operator 8, .store false] := by
  decide +kernel

end RelocExpr
