import Mathlib.Data.List.Forall2
import RelocExpr.Proofs.Division

/-!
# Evaluations that go the same way

Two evaluations of the same parts may have different values for their addresses.  A
correspondence relates the addresses of the one to those of the other.  When it relates
what they begin with and every operator keeps it, both go the same way: they look at the
same symbols, apply the same operators, and come to related addresses or to the same
outcome or error.  Only a division by zero can part them, because all other decisions
depend on segments alone.
-/

namespace RelocExpr

/-- A relation between the addresses of two evaluations.  Related addresses lie in one
segment, and a number is related to itself. -/
structure Correspondence where
  Related : Address → Address → Prop
  segment_eq : ∀ {address other}, Related address other → address.segment = other.segment
  number : ∀ value, Related (.absolute value) (.absolute value)

namespace Correspondence

variable {correspondence : Correspondence}

/-- Related operands have related results, if both have one. -/
def Keeps (correspondence : Correspondence) : Operator → Prop
  | .unary op => ∀ operand other, correspondence.Related operand other →
      correspondence.Related (op.apply operand) (op.apply other)
  | .binary op => ∀ left right otherLeft otherRight result other,
      correspondence.Related left otherLeft → correspondence.Related right otherRight →
      op.apply left right = .ok result → op.apply otherLeft otherRight = .ok other →
      correspondence.Related result other

theorem isAbsolute_eq {address other : Address}
    (related : correspondence.Related address other) :
    address.isAbsolute = other.isAbsolute := by
  rw [Address.isAbsolute, Address.isAbsolute, correspondence.segment_eq related]

/-! ## Symbols -/

/-- Values of one kind, which are related when they are known. -/
inductive ValueRelated (correspondence : Correspondence) : SymbolValue → SymbolValue → Prop where
  | known {address other : Address} : correspondence.Related address other →
      correspondence.ValueRelated (.known address) (.known other)
  | unknown : correspondence.ValueRelated .unknown .unknown
  | external : correspondence.ValueRelated .external .external

/-- Entries of one name with related values. -/
def EntryRelated (correspondence : Correspondence) (entry other : String × SymbolValue) : Prop :=
  entry.1 = other.1 ∧ correspondence.ValueRelated entry.2 other.2

/-- Tables with the same names in the same order and related values.  The current
locations do not matter. -/
structure TableRelated (correspondence : Correspondence) (table other : SymbolTable) : Prop where
  moduleName : table.moduleName = other.moduleName
  entries : List.Forall₂ correspondence.EntryRelated table.entries other.entries

namespace ValueRelated

theorem fresh (correspondence : Correspondence) (external : Bool) :
    correspondence.ValueRelated (.fresh external) (.fresh external) := by
  cases external with
  | false => exact .unknown
  | true => exact .external

theorem change {value other : SymbolValue} (related : correspondence.ValueRelated value other)
    (external : Bool) :
    correspondence.ValueRelated
      ((if external then SymbolValue.markExternal else id) value)
      ((if external then SymbolValue.markExternal else id) other) := by
  cases external with
  | false => exact related
  | true =>
      cases related with
      | known addresses => exact .known addresses
      | unknown | external => exact .external

theorem typeTag_eq {value other : SymbolValue}
    (related : correspondence.ValueRelated value other) : value.typeTag = other.typeTag := by
  cases related with
  | known addresses =>
      rw [SymbolValue.typeTag, SymbolValue.typeTag, correspondence.segment_eq addresses]
  | unknown | external => rfl

end ValueRelated

/-- A change that keeps related values related does so for all of them. -/
theorem put_related {entries others : List (String × SymbolValue)} {fresh : SymbolValue}
    {change : SymbolValue → SymbolValue}
    (freshRelated : correspondence.ValueRelated fresh fresh)
    (changeRelated : ∀ {value other}, correspondence.ValueRelated value other →
      correspondence.ValueRelated (change value) (change other))
    (name : String) (related : List.Forall₂ correspondence.EntryRelated entries others) :
    List.Forall₂ correspondence.EntryRelated (SymbolTable.put fresh change name entries)
      (SymbolTable.put fresh change name others) := by
  induction related with
  | nil => exact .cons ⟨rfl, freshRelated⟩ .nil
  | @cons entry other rest otherRest head tail ih =>
      obtain ⟨sameName, values⟩ := head
      rw [SymbolTable.put, SymbolTable.put, sameName]
      split
      · exact .cons ⟨rfl, changeRelated values⟩ tail
      · exact .cons ⟨rfl, values⟩ ih

theorem lookup_related {entries others : List (String × SymbolValue)}
    (related : List.Forall₂ correspondence.EntryRelated entries others) (name : String) :
    correspondence.ValueRelated ((entries.lookup name).getD .unknown)
      ((others.lookup name).getD .unknown) := by
  induction related with
  | nil => exact .unknown
  | @cons entry other rest otherRest head tail ih =>
      obtain ⟨sameName, values⟩ := head
      rw [Association.lookup_cons_eq_ite, Association.lookup_cons_eq_ite, sameName]
      split
      · exact values
      · exact ih

namespace TableRelated

variable {table other : SymbolTable}

theorem qualifiedName (related : correspondence.TableRelated table other) (ref : SymbolRef) :
    table.qualifiedName ref = other.qualifiedName ref :=
  SymbolTable.qualifiedName_of_moduleName related.moduleName ref

theorem mention (related : correspondence.TableRelated table other) (ref : SymbolRef) :
    correspondence.TableRelated (table.mention ref) (other.mention ref) where
  moduleName := related.moduleName
  entries := by
    rw [SymbolTable.mention, SymbolTable.mention, related.qualifiedName]
    exact put_related (.fresh correspondence ref.external) (·.change ref.external) _
      related.entries

theorem mentionAll (related : correspondence.TableRelated table other) (refs : List SymbolRef) :
    correspondence.TableRelated (table.mentionAll refs) (other.mentionAll refs) := by
  induction refs generalizing table other with
  | nil => exact related
  | cons ref rest ih => exact ih (related.mention ref)

theorem valueOf (related : correspondence.TableRelated table other) (ref : SymbolRef) :
    correspondence.ValueRelated (table.valueOf ref) (other.valueOf ref) := by
  rw [SymbolTable.valueOf, SymbolTable.valueOf, related.qualifiedName]
  exact lookup_related related.entries _

/-- A symbol is found in both tables or in neither. -/
theorem find? (related : correspondence.TableRelated table other) (mode : EvaluationMode)
    (ref : SymbolRef) :
    Option.Rel correspondence.ValueRelated (table.find? mode ref).1 (other.find? mode ref).1 ∧
      correspondence.TableRelated (table.find? mode ref).2 (other.find? mode ref).2 := by
  have mentioned := related.mention ref
  have values := mentioned.valueOf ref
  cases mode with
  | lookahead => exact ⟨.none, related⟩
  | strict => exact ⟨.some values, mentioned⟩
  | bestEffort =>
      refine ⟨?_, mentioned⟩
      simp only [SymbolTable.find?]
      generalize (table.mention ref).valueOf ref = value at values
      generalize (other.mention ref).valueOf ref = otherValue at values
      cases values with
      | known addresses => exact .some (.known addresses)
      | unknown => exact .none
      | external => exact .some .external

end TableRelated

/-! ## Parts -/

/-- Parts that differ in related addresses only.  Operators keep the correspondence. -/
inductive PartRelated (correspondence : Correspondence) : Part → Part → Prop where
  | address {address other : Address} : correspondence.Related address other →
      correspondence.PartRelated (.address address) (.address other)
  | symbol (ref : SymbolRef) : correspondence.PartRelated (.symbol ref) (.symbol ref)
  | operator {operator : Operator} : correspondence.Keeps operator →
      correspondence.PartRelated (.operator operator) (.operator operator)
  | opening : correspondence.PartRelated .opening .opening
  | closing : correspondence.PartRelated .closing .closing
  | bytes (content : List UInt8) (literal : String) :
      correspondence.PartRelated (.bytes content literal) (.bytes content literal)

/-- Types are replaced by the same tags in both lists of parts. -/
theorem foldTypes_related (mode : EvaluationMode) {parts others done otherDone : List Part}
    {table otherTable : SymbolTable}
    (related : List.Forall₂ correspondence.PartRelated parts others)
    (doneRelated : List.Forall₂ correspondence.PartRelated done otherDone)
    (tables : correspondence.TableRelated table otherTable) :
    Option.Rel (List.Forall₂ correspondence.PartRelated) (foldTypes mode done parts table).1
        (foldTypes mode otherDone others otherTable).1 ∧
      correspondence.TableRelated (foldTypes mode done parts table).2
        (foldTypes mode otherDone others otherTable).2 := by
  induction related generalizing done otherDone table otherTable with
  | nil => exact ⟨.some (List.rel_reverse doneRelated), tables⟩
  | @cons part other rest otherRest head tail ih =>
      by_cases type : part = .operator (.unary .type)
      · subst type
        cases head with
        | operator keeps =>
            have typeKept := PartRelated.operator keeps
            cases doneRelated with
            | nil => exact ih (.cons typeKept .nil) tables
            | cons last before =>
                cases last with
                | address addresses =>
                    simp only [foldTypes, if_true, correspondence.segment_eq addresses]
                    exact ih (.cons (.address (correspondence.number _)) before) tables
                | symbol ref =>
                    have looked := tables.find? mode ref
                    simp only [foldTypes, if_true]
                    generalize table.find? mode ref = found at looked
                    generalize otherTable.find? mode ref = otherFound at looked
                    rcases found with ⟨value?, mentioned⟩
                    rcases otherFound with ⟨otherValue?, otherMentioned⟩
                    rcases looked with ⟨values, mentionedRelated⟩
                    cases values with
                    | none => exact ⟨.none, mentionedRelated⟩
                    | some values =>
                        simp only [values.typeTag_eq]
                        exact ih (.cons (.address (correspondence.number _)) before)
                          mentionedRelated
                | operator lastKeeps =>
                    exact ih (.cons typeKept (.cons (.operator lastKeeps) before)) tables
                | opening => exact ih (.cons typeKept (.cons .opening before)) tables
                | closing => exact ih (.cons typeKept (.cons .closing before)) tables
                | bytes content literal =>
                    exact ih (.cons typeKept (.cons (.bytes content literal) before)) tables
      · have otherType : other ≠ .operator (.unary .type) := by
          rintro rfl
          cases head
          contradiction
        rw [Tree.foldTypes_of_ne type, Tree.foldTypes_of_ne otherType]
        exact ih (.cons head doneRelated) tables

/-! ## Operators -/

/-- What an operator leaves on the stack: related values, or nothing in both evaluations,
because the byte is left to the linker or there is a fault. -/
inductive StackRelated (correspondence : Correspondence) :
    Except Fault (Option (List Address)) → Except Fault (Option (List Address)) → Prop where
  | values {stack other : List Address} : List.Forall₂ correspondence.Related stack other →
      correspondence.StackRelated (.ok (some stack)) (.ok (some other))
  | deferred : correspondence.StackRelated (.ok none) (.ok none)
  | fault (fault : Fault) : correspondence.StackRelated (.error fault) (.error fault)
  | divides (operator : Operator) (other : Except Fault (Option (List Address))) :
      correspondence.StackRelated (.error (.error (.divisionByZero operator))) other
  | otherDivides (operator : Operator) (result : Except Fault (Option (List Address))) :
      correspondence.StackRelated result (.error (.error (.divisionByZero operator)))

theorem overflowsByte_eq {operands others : List Address} {result other : Address}
    (operandsRelated : List.Forall₂ correspondence.Related operands others)
    (related : correspondence.Related result other) (isByte : Bool) (operator : Operator) :
    overflowsByte isByte operator operands result =
      overflowsByte isByte operator others other := by
  have anyRelocatable : (operands.any fun operand => !operand.isAbsolute) =
      others.any fun operand => !operand.isAbsolute := by
    induction operandsRelated with
    | nil => rfl
    | cons head tail ih => rw [List.any_cons, List.any_cons, isAbsolute_eq head, ih]
  rw [overflowsByte, overflowsByte, isAbsolute_eq related, anyRelocatable]

/-- Whether a result is left to the linker depends on segments only. -/
theorem pushResult_related {operands others stack otherStack : List Address}
    {result other : Address}
    (operandsRelated : List.Forall₂ correspondence.Related operands others)
    (related : correspondence.Related result other)
    (aligned : List.Forall₂ correspondence.Related stack otherStack)
    (isByte : Bool) (operator : Operator) :
    correspondence.StackRelated
      ((pushResult isByte operator operands result stack).mapError .error)
      ((pushResult isByte operator others other otherStack).mapError .error) := by
  rw [pushResult, pushResult, overflowsByte_eq operandsRelated related]
  split
  · cases operator.linkCode with
    | none => exact .fault _
    | some code => exact .deferred
  · exact .values (.cons related aligned)

/-- Expressions of one size that differ in the addresses of their parts only. -/
structure ExpressionRelated (correspondence : Correspondence) (expression other : Expression) :
    Prop where
  source : expression.source = other.source
  isByte : expression.isByte = other.isByte
  isPostfix : expression.isPostfix = other.isPostfix
  parts : List.Forall₂ correspondence.PartRelated expression.parts other.parts

variable {expression other : Expression}

/-- Operators that keep the correspondence do the same to related stacks. -/
theorem applyOperator_related (expressions : correspondence.ExpressionRelated expression other)
    {operator : Operator} (keeps : correspondence.Keeps operator)
    {stack otherStack : List Address}
    (aligned : List.Forall₂ correspondence.Related stack otherStack) :
    correspondence.StackRelated (applyOperator expression operator stack)
      (applyOperator other operator otherStack) := by
  cases operator with
  | unary op =>
      cases aligned with
      | nil =>
          simp only [applyOperator, expressions.source]
          exact .fault _
      | cons operand below =>
          simp only [applyOperator, expressions.isByte]
          exact pushResult_related (.cons operand .nil) (keeps _ _ operand) below ..
  | binary op =>
      cases aligned with
      | nil =>
          simp only [applyOperator, expressions.source]
          exact .fault _
      | cons right left =>
          cases left with
          | nil =>
              simp only [applyOperator, expressions.source]
              exact .fault _
          | @cons left otherLeft below otherBelow leftRelated below =>
              simp only [applyOperator, expressions.isByte]
              rcases op.apply_cases_of_segment_eq (correspondence.segment_eq leftRelated)
                  (correspondence.segment_eq right) with
                divides | divides | ⟨error, failed, otherFailed⟩ |
                  ⟨result, otherResult, applied, otherApplied, -⟩
              · rw [divides]
                exact .divides ..
              · rw [divides]
                exact .otherDivides ..
              · rw [failed, otherFailed]
                exact .fault _
              · rw [applied, otherApplied]
                have related := keeps _ _ _ _ _ _ leftRelated right applied otherApplied
                exact pushResult_related (.cons leftRelated (.cons right .nil)) related below ..

/-! ## Evaluations -/

/-- Both evaluations come to related addresses, or to the same that is no address. -/
inductive OutcomeRelated (correspondence : Correspondence) :
    Except Fault Evaluation → Except Fault Evaluation → Prop where
  | resolved {address other : Address} : correspondence.Related address other →
      correspondence.OutcomeRelated (.ok (.resolved address)) (.ok (.resolved other))
  | same {outcome : Except Fault Evaluation} :
      (∀ address, outcome ≠ .ok (.resolved address)) →
      correspondence.OutcomeRelated outcome outcome

/-- The evaluations have related outcomes and leave related tables, unless one of them
divides by zero. -/
def EndsAlike (correspondence : Correspondence)
    (result other : Except Fault Evaluation × SymbolTable) : Prop :=
  DividesByZero result.1 ∨ DividesByZero other.1 ∨
    correspondence.OutcomeRelated result.1 other.1 ∧ correspondence.TableRelated result.2 other.2

namespace EndsAlike

variable {table otherTable : SymbolTable}

theorem same (tables : correspondence.TableRelated table otherTable)
    {outcome : Except Fault Evaluation}
    (notResolved : ∀ address, outcome ≠ .ok (.resolved address)) :
    correspondence.EndsAlike (outcome, table) (outcome, otherTable) :=
  .inr (.inr ⟨.same notResolved, tables⟩)

theorem fault (tables : correspondence.TableRelated table otherTable) (fault : Fault) :
    correspondence.EndsAlike (.error fault, table) (.error fault, otherTable) :=
  .same tables (by simp)

theorem resolved (tables : correspondence.TableRelated table otherTable) {address other : Address}
    (related : correspondence.Related address other) :
    correspondence.EndsAlike (.ok (.resolved address), table)
      (.ok (.resolved other), otherTable) :=
  .inr (.inr ⟨.resolved related, tables⟩)

end EndsAlike

/-- Related parts run on related stacks end alike. -/
theorem runParts_endsAlike (expressions : correspondence.ExpressionRelated expression other)
    (mode : EvaluationMode) {parts others : List Part} {stack otherStack : List Address}
    {table otherTable : SymbolTable}
    (related : List.Forall₂ correspondence.PartRelated parts others)
    (aligned : List.Forall₂ correspondence.Related stack otherStack) (external : Bool)
    (tables : correspondence.TableRelated table otherTable) :
    correspondence.EndsAlike (runParts expression mode parts stack external table)
      (runParts other mode others otherStack external otherTable) := by
  induction related generalizing stack otherStack external table otherTable with
  | nil =>
      rw [runParts.eq_def, runParts.eq_def, expressions.source]
      cases aligned with
      | nil => exact .fault tables _
      | cons result below =>
          cases below with
          | nil =>
              cases external with
              | true => exact .same tables (by simp)
              | false => exact .resolved tables result
          | cons second rest =>
              simp only [List.length_cons, rest.length_eq]
              exact .fault tables _
  | cons head tail ih =>
      cases head with
      | address addresses => exact ih (.cons addresses aligned) external tables
      | symbol ref =>
          have looked := tables.find? mode ref
          have sameName := tables.qualifiedName ref
          rw [runParts, runParts]
          generalize table.find? mode ref = found at looked
          generalize otherTable.find? mode ref = otherFound at looked
          rcases found with ⟨value?, mentioned⟩
          rcases otherFound with ⟨otherValue?, otherMentioned⟩
          rcases looked with ⟨values, mentionedRelated⟩
          cases values with
          | none => exact .same mentionedRelated (by simp)
          | some values =>
              cases values with
              | known addresses => exact ih (.cons addresses aligned) external mentionedRelated
              | external => exact ih (.cons (correspondence.number 0) aligned) true mentionedRelated
              | unknown =>
                  simp only [sameName]
                  exact .fault mentionedRelated _
      | operator keeps =>
          have applied := applyOperator_related expressions keeps aligned
          rw [runParts, runParts]
          generalize applyOperator expression _ stack = result at applied
          generalize applyOperator other _ otherStack = otherResult at applied
          cases applied with
          | values aligned => exact ih aligned external tables
          | deferred => exact .same tables (by simp)
          | fault fault => exact .fault tables fault
          | divides operator otherResult => exact .inl ⟨operator, rfl⟩
          | otherDivides operator result => exact .inr (.inl ⟨operator, rfl⟩)
      | opening => exact .fault tables _
      | closing => exact .fault tables _
      | bytes content literal => exact .fault tables _

namespace ExpressionRelated

theorem symbolRefs_eq (related : correspondence.ExpressionRelated expression other) :
    expression.symbolRefs = other.symbolRefs := by
  have parts := related.parts
  rw [Expression.symbolRefs, Expression.symbolRefs]
  generalize expression.parts = first at parts
  generalize other.parts = second at parts
  induction parts with
  | nil => rfl
  | cons head tail ih => cases head <;> simp [List.filterMap_cons, Part.symbol?, ih]

theorem isEmpty_parts_eq (related : correspondence.ExpressionRelated expression other) :
    expression.parts.isEmpty = other.parts.isEmpty := by
  have parts := related.parts
  generalize expression.parts = first at parts
  generalize other.parts = second at parts
  cases parts <;> rfl

variable {table otherTable : SymbolTable}

theorem run_endsAlike (related : correspondence.ExpressionRelated expression other)
    (mode : EvaluationMode) (tables : correspondence.TableRelated table otherTable) :
    correspondence.EndsAlike (expression.run mode table) (other.run mode otherTable) := by
  rw [Expression.run, Expression.run, related.isPostfix, related.source,
    related.isEmpty_parts_eq]
  split
  · exact .fault tables _
  · split
    · exact .resolved tables (correspondence.number 0)
    · have folded := foldTypes_related mode related.parts .nil tables
      generalize foldTypes mode [] expression.parts table = result at folded
      generalize foldTypes mode [] other.parts otherTable = otherResult at folded
      rcases result with ⟨parts?, mentioned⟩
      rcases otherResult with ⟨otherParts?, otherMentioned⟩
      rcases folded with ⟨parts, mentionedRelated⟩
      cases parts with
      | none => exact .same mentionedRelated (by simp)
      | some parts => exact runParts_endsAlike related mode parts .nil false mentionedRelated

/-- Related expressions are evaluated alike with related tables. -/
theorem evaluate_endsAlike (related : correspondence.ExpressionRelated expression other)
    (mode : EvaluationMode) (tables : correspondence.TableRelated table otherTable) :
    correspondence.EndsAlike (expression.evaluate mode table) (other.evaluate mode otherTable) := by
  have refs := related.symbolRefs_eq
  cases mode with
  | strict =>
      rw [Expression.evaluate, Expression.evaluate, refs]
      exact related.run_endsAlike .strict (tables.mentionAll _)
  | bestEffort => exact related.run_endsAlike .bestEffort tables
  | lookahead =>
      rw [Expression.evaluate, Expression.evaluate, Expression.hasSymbols, Expression.hasSymbols,
        refs]
      split
      · exact .same tables (by simp)
      · exact related.run_endsAlike .lookahead tables

/-! ## Without divisions -/

theorem hasDivision (related : correspondence.ExpressionRelated expression other)
    (divides : HasDivision other.parts) : HasDivision expression.parts := by
  apply divides.mono
  intro operator member
  have parts := related.parts
  generalize expression.parts = first at parts
  generalize other.parts = second at parts member
  induction parts with
  | nil => cases member
  | cons head tail ih =>
      rcases List.mem_cons.1 member with rfl | later
      · cases head
        exact List.mem_cons_self ..
      · exact List.mem_cons_of_mem _ (ih later)

/-- Without quotients and remainders nothing parts the evaluations. -/
theorem evaluate_outcomeRelated (related : correspondence.ExpressionRelated expression other)
    (mode : EvaluationMode) (tables : correspondence.TableRelated table otherTable)
    (noDivision : ¬HasDivision expression.parts) :
    correspondence.OutcomeRelated (expression.evaluate mode table).1
      (other.evaluate mode otherTable).1 := by
  rcases related.evaluate_endsAlike mode tables with divides | divides | alike
  · exact absurd (Expression.hasDivision_of_evaluate divides) noDivision
  · exact absurd (related.hasDivision (Expression.hasDivision_of_evaluate divides)) noDivision
  · exact alike.1

end ExpressionRelated

end Correspondence

end RelocExpr
