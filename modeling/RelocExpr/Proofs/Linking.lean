import RelocExpr.Proofs.LinkProgram
import RelocExpr.Proofs.Ordering

/-!
# Linking and evaluation

The linker gives every external symbol an address.  Running the items of an
expression then comes to what evaluating the expression comes to with those
addresses in the table: to the same address, or to the same error of an operator.
-/

namespace RelocExpr

/-! ## Addresses of external symbols -/

/-- An external symbol gets an address. -/
def SymbolValue.assign (address : Address) : SymbolValue → SymbolValue
  | .external => .known address
  | value => value

namespace SymbolTable

variable {table : SymbolTable} {addresses : String → Address} {ref : SymbolRef}

/-- Give every external symbol an address. -/
def assign (addresses : String → Address) (table : SymbolTable) : SymbolTable :=
  { table with
    entries := table.entries.map fun (name, value) => (name, value.assign (addresses name)) }

/-- The address of a symbol when the external ones have been given theirs. -/
def addressOf (addresses : String → Address) (table : SymbolTable) (ref : SymbolRef) :
    Address :=
  ((table.assign addresses).valueOf ref).address?.getD (.absolute 0)

@[simp] theorem qualifiedName_assign :
    (table.assign addresses).qualifiedName ref = table.qualifiedName ref := rfl

theorem lookup_map_assign (name : String) (entries : List (String × SymbolValue)) :
    (entries.map fun (other, value) => (other, value.assign (addresses other))).lookup name =
      (entries.lookup name).map (SymbolValue.assign (addresses name)) := by
  induction entries with
  | nil => rfl
  | cons entry rest ih =>
      rcases entry with ⟨first, value⟩
      rw [List.map_cons, Association.lookup_cons_eq_ite, Association.lookup_cons_eq_ite]
      by_cases head : name = first
      · subst head
        simp
      · simp only [if_neg head, ih]

theorem valueOf_assign :
    (table.assign addresses).valueOf ref =
      (table.valueOf ref).assign (addresses (table.qualifiedName ref)) := by
  rw [valueOf, qualifiedName_assign, assign, lookup_map_assign, valueOf]
  cases table.entries.lookup (table.qualifiedName ref) <;> rfl

/-- A symbol that is not unknown has an address then. -/
theorem valueOf_assign_of_ne_unknown (settled : table.valueOf ref ≠ .unknown) :
    (table.assign addresses).valueOf ref = .known (table.addressOf addresses ref) := by
  rw [addressOf, valueOf_assign]
  cases found : table.valueOf ref with
  | known | external => rfl
  | unknown => contradiction

theorem addressOf_of_known {address : Address} (known : table.valueOf ref = .known address) :
    table.addressOf addresses ref = address := by
  rw [addressOf, valueOf_assign, known]
  rfl

theorem addressOf_of_external (external : table.valueOf ref = .external) :
    table.addressOf addresses ref = addresses (table.qualifiedName ref) := by
  rw [addressOf, valueOf_assign, external]
  rfl

end SymbolTable

/-! ## Items and results -/

/-- The items of an operand compute a result, which is its value if it has one. -/
structure LinkOperand.Links (addresses : String → Address) (operand : LinkOperand)
    (result : Except ExpressionError Address) : Prop where
  computes : Computes addresses operand.items result
  value : ∀ value, operand.value? = some value → result = .ok value

namespace LinkOperand.Links

variable {addresses : String → Address} {operand left right : LinkOperand}

theorem known (address : Address) :
    (LinkOperand.known address).Links addresses (.ok address) where
  computes := .address address
  value _ found := by
    cases found
    rfl

theorem external (name : String) :
    (LinkOperand.external name).Links addresses (.ok (addresses name)) where
  computes := .external name
  value _ found := by cases found

/-- An operator that the linker does not know is applied to the value. -/
theorem applyUnary {op : UnaryOp} {applied : LinkOperand}
    {result : Except ExpressionError Address}
    (linked : operand.applyUnary op = .ok applied) (links : operand.Links addresses result) :
    applied.Links addresses (result.map op.apply) := by
  rw [LinkOperand.applyUnary] at linked
  split at linked
  · next code known =>
      cases linked
      constructor
      · exact links.computes.unary known
      · intro value found
        rcases Option.map_eq_some_iff.1 found with ⟨inner, innerFound, rfl⟩
        rw [links.value inner innerFound]
        rfl
  · split at linked
    · next value found =>
        split at linked
        · cases linked
          rw [links.value value found]
          exact known (op.apply value)
        · cases linked
    · cases linked

theorem applyBinary {op : BinaryOp} {leftResult rightResult : Except ExpressionError Address}
    (leftLinks : left.Links addresses leftResult)
    (rightLinks : right.Links addresses rightResult) :
    (LinkOperand.applyBinary op left right).Links addresses
      (op.applyResults leftResult rightResult) where
  computes := leftLinks.computes.binary rightLinks.computes
  value value found := by
    rcases Option.bind_eq_some_iff.1 found with ⟨leftValue, leftFound, found⟩
    rcases Option.bind_eq_some_iff.1 found with ⟨rightValue, rightFound, found⟩
    rw [leftLinks.value leftValue leftFound, rightLinks.value rightValue rightFound]
    change op.apply leftValue rightValue = .ok value
    cases applied : op.apply leftValue rightValue with
    | error error => simp [applied, Except.toOption] at found
    | ok result =>
        rw [applied] at found
        cases found
        rfl

end LinkOperand.Links

namespace Tree

/-- The unary plus has no effect on a result. -/
theorem map_apply_plus (result : Except ExpressionError Address) :
    result.map UnaryOp.plus.apply = result := by
  cases result <;> rfl

theorem extends_link (tree : Tree) (table : SymbolTable) :
    (tree.link table).2.Extends table := by
  induction tree generalizing table with
  | address value => exact .refl table
  | symbol ref =>
      have mentioned := SymbolTable.Extends.mention table ref
      rw [link]
      cases (table.mention ref).valueOf ref <;> exact mentioned
  | unary op operand ih =>
      have inner := ih table
      rw [link]
      cases found : operand.link table with
      | mk outcome mentioned =>
          rw [found] at inner
          cases outcome <;> exact inner
  | binary op left right leftIH rightIH =>
      have first := leftIH table
      rw [link]
      cases leftFound : left.link table with
      | mk leftOutcome leftMentioned =>
          rw [leftFound] at first
          cases leftOutcome with
          | error error => exact first
          | ok left =>
              have second := rightIH leftMentioned
              simp only
              cases rightFound : right.link leftMentioned with
              | mk rightOutcome rightMentioned =>
                  rw [rightFound] at second
                  cases rightOutcome <;> exact second.trans first

/-- The items of a tree compute it, with what any later table knows.  By then every
symbol of the tree is known or external. -/
theorem links_of_link {tree : Tree} {table later final : SymbolTable} {linked : LinkOperand}
    (addresses : String → Address) (found : tree.link table = (.ok linked, later))
    (extends_ : final.Extends later) :
    linked.Links addresses (tree.compute (final.addressOf addresses)) ∧
      ∀ ref ∈ tree.symbolRefs, final.valueOf ref ≠ .unknown := by
  induction tree generalizing table later linked with
  | address value =>
      cases found
      exact ⟨.known value, by simp [symbolRefs]⟩
  | symbol ref =>
      simp only [link] at found
      split at found
      · next value known =>
          cases found
          have finally_ := extends_.valueOf ref (by simp [known])
          rw [known] at finally_
          rw [compute, SymbolTable.addressOf_of_known finally_]
          exact ⟨.known value, by simp [symbolRefs, finally_]⟩
      · next external =>
          cases found
          have finally_ := extends_.valueOf ref (by simp [external])
          rw [external] at finally_
          rw [compute, SymbolTable.addressOf_of_external finally_, extends_.qualifiedName]
          exact ⟨.external _, by simp [symbolRefs, finally_]⟩
      · cases found
  | unary op operand ih =>
      rw [link] at found
      split at found
      · cases found
      · next operandFound =>
          rcases Prod.mk.inj found with ⟨applied, rfl⟩
          rcases ih operandFound extends_ with ⟨links, settled⟩
          refine ⟨?_, settled⟩
          split at applied
          · next identity =>
              cases applied
              rw [compute, identity, map_apply_plus]
              exact links
          · exact links.applyUnary applied
  | binary op left right leftIH rightIH =>
      rw [link] at found
      split at found
      · cases found
      · next middle leftFound =>
          split at found
          · cases found
          · next rightFound =>
              cases found
              have between := extends_link right middle
              rw [rightFound] at between
              rcases leftIH leftFound (extends_.trans between) with ⟨leftLinks, leftSettled⟩
              rcases rightIH rightFound extends_ with ⟨rightLinks, rightSettled⟩
              refine ⟨leftLinks.applyBinary rightLinks, ?_⟩
              intro ref member
              rcases List.mem_append.1 member with inner | inner
              · exact leftSettled ref inner
              · exact rightSettled ref inner

end Tree

/-! ## Expressions -/

namespace Expression

variable {expression : Expression} {tree : Tree} {table : SymbolTable}

/-- The items of an expression are those of its tree, and the one that stores it. -/
theorem linkItems_postOrder (ordered : expression.isPostfix = true)
    (parts : expression.parts = tree.postOrder) (table : SymbolTable) :
    expression.linkItems table =
      match tree.replaceTypes .strict table with
      | (none, table) => (.error (.defect .undecidedSymbol), table)
      | (some replaced, table) =>
          match replaced.link table with
          | (.error error, table) => (.error (.error error), table)
          | (.ok operand, table) =>
              (.ok (operand.items ++ [.store expression.isByte]), table) := by
  have admitted : tree.Admits .strict := .of_ne_lookahead (by decide)
  have folded := Tree.foldTypes_postOrder admitted [] [] table
  rw [List.append_nil] at folded
  rw [linkItems, ordered, parts, folded]
  cases tree.replaceTypes .strict table with
  | mk outcome mentioned =>
      cases outcome with
      | none => rfl
      | some replaced =>
          have linked := Tree.linkParts_postOrder expression.source replaced [] [] mentioned
          rw [List.append_nil] at linked
          simp only [foldTypes, List.append_nil, List.reverse_reverse, linked]
          cases replaced.link mentioned with
          | mk outcome mentioned => cases outcome <;> rfl

/-- With an address for each external symbol an expression that has been linked
comes to what the linker computes. -/
theorem evaluate_of_link {replaced : Tree} {operand : LinkOperand} {final : SymbolTable}
    (ordered : expression.isPostfix = true) (word : expression.isByte = false)
    (parts : expression.parts = tree.postOrder) (freeOfNul : tree.FreeOfNul)
    (typedKnown : ∀ ref ∈ tree.typedRefs, ∃ address, table.valueOf ref = .known address)
    (found : tree.replaceTypes .strict table = (some replaced, table))
    (linked : replaced.link table = (.ok operand, final)) (addresses : String → Address) :
    expression.evaluate .strict (final.assign addresses) =
      (((replaced.compute (final.addressOf addresses)).map .resolved).mapError .error,
        final.assign addresses) := by
  have later := Tree.extends_link replaced table
  rw [linked] at later
  have stillKnown {ref : SymbolRef} {address : Address}
      (known : table.valueOf ref = .known address) : final.valueOf ref = .known address := by
    rw [later.valueOf ref (by simp [known]), known]
  have knownLater (ref : SymbolRef) (member : ref ∈ tree.typedRefs) :
      ∃ address, table.valueOf ref = .known address ∧
        (final.assign addresses).valueOf ref = .known address := by
    rcases typedKnown ref member with ⟨address, known⟩
    refine ⟨address, known, ?_⟩
    rw [SymbolTable.valueOf_assign, stillKnown known]
    rfl
  -- The last table replaces the types alike, and the symbols that are left are settled.
  rcases Tree.replaceTypes_of_known knownLater .strict with
    ⟨again, foundAgain, foundLater, kept⟩
  rw [found] at foundAgain
  cases foundAgain
  have settled := (Tree.links_of_link addresses linked (.refl final)).2
  refine evaluate_of_known ordered word parts freeOfNul ?_ foundLater
  intro ref member
  apply SymbolTable.valueOf_assign_of_ne_unknown
  rcases kept ref member with typed | left
  · obtain ⟨address, known⟩ := typedKnown ref typed
    simp [stillKnown known]
  · exact settled ref left

/-- The linker computes what an evaluation with its addresses gives, whatever
addresses it gives to external symbols.  Both have the same address, or the same
error of an operator. -/
theorem linkItems_agrees_with_evaluate {items : List LinkItem} {final : SymbolTable}
    (ordered : expression.Ordered) (word : expression.isByte = false)
    (typesKnown : ∀ before ref after,
      expression.parts = before ++ .symbol ref :: .operator (.unary .type) :: after →
        ∃ address, table.valueOf ref = .known address)
    (linked : expression.linkItems table = (.ok items, final))
    (addresses : String → Address) :
    ∃ (program : List LinkItem) (result : Except ExpressionError Address),
      items = program ++ [.store false] ∧
      runProgram addresses program = result.mapError .undefined ∧
      expression.evaluate .strict (final.assign addresses) =
        ((result.map .resolved).mapError .error, final.assign addresses) ∧
      ∀ error, result = .error error →
        (∃ operator left right, error = .segmentMismatch operator left right) ∨
          ∃ operator, error = .divisionByZero operator := by
  rcases ordered.parts_cases with
    empty | ⟨content, literal, single⟩ | ⟨tree, freeOfNul, parts⟩
  · simp only [linkItems, ordered.isPostfix, empty, word] at linked
    cases linked
    refine ⟨[.address (.absolute 0)], .ok (.absolute 0), rfl, rfl, ?_, ?_⟩
    · simp only [evaluate, symbolRefs, run, ordered.isPostfix, empty]
      rfl
    · intro error failed
      cases failed
  · -- A string is no item.
    simp only [linkItems, ordered.isPostfix, single] at linked
    cases linked
  · have typedKnown (ref : SymbolRef) (member : ref ∈ tree.typedRefs) :
        ∃ address, table.valueOf ref = .known address := by
      rcases Tree.exists_postOrder_of_mem_typedRefs member with ⟨before, after, order⟩
      exact typesKnown before ref after (parts.trans order)
    rcases Tree.exists_replaceTypes_of_known typedKnown .strict with ⟨replaced, found⟩
    rw [linkItems_postOrder ordered.isPostfix parts, found, word] at linked
    simp only at linked
    split at linked
    · cases linked
    · next linkFound =>
        cases linked
        rcases Tree.links_of_link addresses linkFound (.refl final) with ⟨links, -⟩
        refine ⟨_, replaced.compute (final.addressOf addresses), rfl,
          links.computes.runProgram_eq, ?_, fun _ => Tree.compute_eq_error_cases⟩
        exact evaluate_of_link ordered.isPostfix word parts freeOfNul typedKnown found
          linkFound addresses

end Expression

/-- In `(E - 1) * TYPE C` the linker subtracts and multiplies.  With `E` in a segment the
product is not defined. -/
theorem linkItems_agrees_with_evaluate_of_scaled_external :
    let symbol (name : String) : Part :=
      .symbol { name, external := false, root := false }
    let expression : Expression :=
      { source := "(E - 1) * TYPE C"
        parts := [symbol "E", .number 1, .operator (.binary .minus), symbol "C",
          .operator (.unary .type), .operator (.binary .times)]
        isByte := false
        isPostfix := true }
    let table : SymbolTable :=
      { entries := [("E", .external), ("C", .known ⟨.code, 3⟩)] }
    let addresses (_ : String) : Address := ⟨.data, 5⟩
    ∃ (program : List LinkItem) (result : Except ExpressionError Address),
      [.external "E", .address (.absolute 1), .operator 7, .address (.absolute 0x21),
        .operator 9, .store false] = program ++ [.store false] ∧
      runProgram addresses program = result.mapError .undefined ∧
      expression.evaluate .strict (table.assign addresses) =
        ((result.map .resolved).mapError .error, table.assign addresses) ∧
      ∀ error, result = .error error →
        (∃ operator left right, error = .segmentMismatch operator left right) ∨
          ∃ operator, error = .divisionByZero operator := by
  intro symbol expression table addresses
  have ordered : expression.Ordered :=
    @Expression.Ordered.toPostfix
      { expression with
        parts := [.opening, symbol "E", .operator (.binary .minus), .number 1, .closing,
          .operator (.binary .times), .operator (.unary .type), symbol "C"]
        isPostfix := false } _ rfl rfl
  have linked : expression.linkItems table =
      (.ok [.external "E", .address (.absolute 1), .operator 7, .address (.absolute 0x21),
        .operator 9, .store false], table) := by
    decide
  refine Expression.linkItems_agrees_with_evaluate ordered rfl ?_ linked addresses
  intro before ref after parts
  rcases before with _ | ⟨_, _ | ⟨_, _ | ⟨_, _ | ⟨_, _ | ⟨_, _ | ⟨_, _⟩⟩⟩⟩⟩⟩ <;>
    simp [expression, symbol, Part.number] at parts
  rcases parts with ⟨-, -, -, rfl, -⟩
  exact ⟨⟨.code, 3⟩, rfl⟩

end RelocExpr
