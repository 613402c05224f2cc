import RelocExpr.Proofs.Correspondence

/-!
# Relocation

The linker puts every segment at a base and adds it to the addresses in the segment.  An
expression that adds and subtracts its symbols, compares them for equality and asks for
their types can be evaluated before or after: what is relocated comes to the relocated
address, and to the same outcome or error when there is no address.
-/

namespace RelocExpr

/-- Where each segment begins.  The absolute segment begins at zero, and every common
block has a base of its own. -/
structure Bases where
  base : Segment → UInt16
  base_absolute : base .absolute = 0

/-! ## What is relocated -/

namespace Address

variable (bases : Bases)

/-- Add the base of its segment to an address, modulo 2^16. -/
def relocate (address : Address) : Address :=
  address.withValue (address.value + bases.base address.segment)

@[simp] theorem segment_relocate (address : Address) :
    (address.relocate bases).segment = address.segment := rfl

@[simp] theorem value_relocate (address : Address) :
    (address.relocate bases).value = address.value + bases.base address.segment := rfl

@[simp] theorem relocate_absolute (value : UInt16) :
    (absolute value).relocate bases = absolute value := by
  simp [relocate, absolute, withValue, bases.base_absolute]

theorem eq_relocate {address other : Address} (segment : other.segment = address.segment)
    (value : other.value = address.value + bases.base address.segment) :
    other = address.relocate bases := by
  rcases other with ⟨otherSegment, otherValue⟩
  simp only at segment value
  rw [segment, value]
  rfl

end Address

def SymbolValue.relocate (bases : Bases) : SymbolValue → SymbolValue
  | .known address => .known (address.relocate bases)
  | value => value

/-- Relocate every symbol that is known. -/
def SymbolTable.relocate (bases : Bases) (table : SymbolTable) : SymbolTable :=
  { table with entries := table.entries.map fun (name, value) => (name, value.relocate bases) }

def Part.relocate (bases : Bases) : Part → Part
  | .address literal => .address (literal.relocate bases)
  | part => part

/-- Relocate every literal. -/
def Expression.relocate (bases : Bases) (expression : Expression) : Expression :=
  { expression with parts := expression.parts.map (Part.relocate bases) }

/-- Relocate the result, if there is one. -/
def Evaluation.relocate (bases : Bases) : Evaluation → Evaluation
  | .resolved address => .resolved (address.relocate bases)
  | evaluation => evaluation

/-- The operators that may be applied before or after relocation. -/
def movableOperators : List Operator :=
  [.binary .plus, .binary .minus, .unary .plus, .binary .times, .binary .shl, .binary .eq,
   .binary .ne, .unary .type]

namespace Bases

variable (bases : Bases)

/-! ## Bases of results -/

theorem base_of_isAbsolute {segment : Segment} (absolute : segment.isAbsolute = true) :
    bases.base segment = 0 := by
  rw [(Segment.isAbsolute_iff segment).1 absolute, bases.base_absolute]

variable {left right result : Segment}

/-- One of the bases of a sum is zero. -/
theorem base_of_oneAbsolute (combined : SegmentRule.oneAbsolute.combine? left right = some result) :
    bases.base result = bases.base left + bases.base right := by
  simp only [SegmentRule.combine?] at combined
  split at combined
  · next absolute =>
      cases combined
      rw [bases.base_of_isAbsolute absolute, UInt16.zero_add]
  · split at combined
    · next absolute =>
        cases combined
        rw [bases.base_of_isAbsolute absolute, UInt16.add_zero]
    · cases combined

/-- The bases of a difference cancel out, or the second one is zero. -/
theorem base_of_difference (combined : SegmentRule.difference.combine? left right = some result) :
    bases.base result = bases.base left - bases.base right := by
  simp only [SegmentRule.combine?] at combined
  split at combined
  · next absolute =>
      cases combined
      rw [bases.base_of_isAbsolute absolute, UInt16.sub_zero]
  · split at combined
    · next same =>
        cases combined
        rw [same, bases.base_absolute, UInt16.sub_self]
    · cases combined

theorem base_of_bothAbsolute
    (combined : SegmentRule.bothAbsolute.combine? left right = some result) :
    bases.base left = 0 ∧ bases.base right = 0 ∧ bases.base result = 0 := by
  simp only [SegmentRule.combine?] at combined
  split at combined
  · next absolute =>
      rw [Bool.and_eq_true] at absolute
      cases combined
      have leftBase := bases.base_of_isAbsolute absolute.1
      exact ⟨leftBase, bases.base_of_isAbsolute absolute.2, leftBase⟩
  · cases combined

theorem base_of_sameSegment
    (combined : SegmentRule.sameSegment.combine? left right = some result) :
    bases.base left = bases.base right ∧ bases.base result = 0 := by
  simp only [SegmentRule.combine?] at combined
  split at combined
  · next same =>
      cases combined
      exact ⟨congrArg bases.base same, bases.base_absolute⟩
  · cases combined

end Bases

/-! ## Operators -/

variable {bases : Bases}

/-- The value of a movable operator moves as far as the segment of its result. -/
theorem BinaryOp.value?_relocate {op : BinaryOp} (movable : .binary op ∈ movableOperators)
    {left right : Address} {result : Segment}
    (combined : op.rule.combine? left.segment right.segment = some result) :
    op.value? (left.relocate bases).value (right.relocate bases).value =
      (op.value? left.value right.value).map (· + bases.base result) := by
  rw [Address.value_relocate, Address.value_relocate]
  cases op with
  | plus =>
      rw [bases.base_of_oneAbsolute combined]
      simp only [value?, Option.map_some]
      congr 1
      ac_rfl
  | minus =>
      rw [bases.base_of_difference combined]
      simp only [value?, Option.map_some]
      congr 1
      grind
  | times | shl =>
      obtain ⟨leftBase, rightBase, resultBase⟩ := bases.base_of_bothAbsolute combined
      simp [value?, leftBase, rightBase, resultBase]
  | eq | ne =>
      obtain ⟨sameBase, resultBase⟩ := bases.base_of_sameSegment combined
      simp [value?, sameBase, resultBase]
  | _ => simp [movableOperators] at movable

namespace Correspondence

/-- Addresses before and after relocation. -/
def relocation (bases : Bases) : Correspondence where
  Related address other := other = address.relocate bases
  segment_eq := by
    rintro address other rfl
    rfl
  number value := (Address.relocate_absolute bases value).symm

theorem keeps_relocation {operator : Operator} (movable : operator ∈ movableOperators) :
    (relocation bases).Keeps operator := by
  cases operator with
  | unary op =>
      rintro operand other rfl
      cases op with
      | plus => rfl
      | type => exact (relocation bases).number _
      | _ => simp [movableOperators] at movable
  | binary op =>
      rintro left right otherLeft otherRight result other rfl rfl applied otherApplied
      obtain ⟨combined, valued⟩ := BinaryOp.apply_eq_ok_iff.1 applied
      obtain ⟨otherCombined, otherValued⟩ := BinaryOp.apply_eq_ok_iff.1 otherApplied
      rw [Address.segment_relocate, Address.segment_relocate, combined] at otherCombined
      rw [BinaryOp.value?_relocate movable combined, valued] at otherValued
      exact Address.eq_relocate bases (Option.some.inj otherCombined).symm
        (Option.some.inj otherValued).symm

/-! ## What corresponds to what is relocated -/

theorem valueRelated_relocate (value : SymbolValue) :
    (relocation bases).ValueRelated value (value.relocate bases) := by
  cases value with
  | known address => exact .known rfl
  | unknown => exact .unknown
  | external => exact .external

theorem tableRelated_relocate (bases : Bases) (table : SymbolTable) :
    (relocation bases).TableRelated table (table.relocate bases) where
  moduleName := rfl
  entries := by
    rw [SymbolTable.relocate, List.forall₂_map_right_iff, List.forall₂_same]
    intro entry member
    exact ⟨rfl, valueRelated_relocate entry.2⟩

theorem expressionRelated_relocate (bases : Bases) {expression : Expression}
    (movable : ∀ operator, .operator operator ∈ expression.parts →
      operator ∈ movableOperators) :
    (relocation bases).ExpressionRelated expression (expression.relocate bases) where
  source := rfl
  isByte := rfl
  isPostfix := rfl
  parts := by
    rw [Expression.relocate, List.forall₂_map_right_iff, List.forall₂_same]
    intro part member
    cases part with
    | address value => exact .address rfl
    | symbol ref => exact .symbol ref
    | operator operator => exact .operator (keeps_relocation (movable operator member))
    | opening => exact .opening
    | closing => exact .closing
    | bytes content literal => exact .bytes content literal

theorem OutcomeRelated.eq_map_relocate {outcome other : Except Fault Evaluation}
    (related : (relocation bases).OutcomeRelated outcome other) :
    other = outcome.map (Evaluation.relocate bases) := by
  cases related with
  | resolved addresses =>
      cases addresses
      rfl
  | same notResolved =>
      rcases outcome with fault | evaluation
      · rfl
      · cases evaluation with
        | resolved address => exact absurd rfl (notResolved address)
        | undecided | deferred | external => rfl

end Correspondence

theorem not_hasDivision_of_movable {parts : List Part}
    (movable : ∀ operator, .operator operator ∈ parts → operator ∈ movableOperators) :
    ¬HasDivision parts := by
  rintro (quotient | remainder)
  · exact absurd (movable _ quotient) (by decide)
  · exact absurd (movable _ remainder) (by decide)

/-- An expression of movable operators comes to the relocated address when its literals
and the symbols of the table are relocated, and to the same outcome or error when there
is no address. -/
theorem Expression.evaluate_relocate (bases : Bases) {expression : Expression}
    (movable : ∀ operator, .operator operator ∈ expression.parts →
      operator ∈ movableOperators)
    (mode : EvaluationMode) (table : SymbolTable) :
    ((expression.relocate bases).evaluate mode (table.relocate bases)).1 =
      (expression.evaluate mode table).1.map (Evaluation.relocate bases) := by
  have expressions := Correspondence.expressionRelated_relocate bases movable
  have tables := Correspondence.tableRelated_relocate bases table
  have noDivision := not_hasDivision_of_movable movable
  exact (expressions.evaluate_outcomeRelated mode tables noDivision).eq_map_relocate

/-- `(STOP - START) SHL 1 + $` is relocated with the code segment, wherever the common
block of `START` and `STOP` begins. -/
theorem evaluate_relocate_of_scaled_distance :
    let symbol (name : String) : Part := .symbol { name, external := false, root := false }
    let expression : Expression :=
      { source := "(STOP - START) SHL 1 + $"
        parts := [symbol "STOP", symbol "START", .operator (.binary .minus), .number 1,
          .operator (.binary .shl), .address ⟨.code, 0x10⟩, .operator (.binary .plus)]
        isByte := false
        isPostfix := true }
    let table : SymbolTable :=
      { entries := [("START", .known ⟨.common "BUF", 2⟩), ("STOP", .known ⟨.common "BUF", 0x16⟩)] }
    let bases : Bases :=
      { base := fun
          | .absolute => 0
          | .code => 0x8000
          | .data => 0xC000
          | .common _ => 0xFFF0
        base_absolute := rfl }
    (∀ operator, .operator operator ∈ expression.parts → operator ∈ movableOperators) ∧
      (expression.evaluate .strict table).1 = .ok (.resolved ⟨.code, 0x38⟩) ∧
      ((expression.relocate bases).evaluate .strict (table.relocate bases)).1 =
        .ok (.resolved ⟨.code, 0x8038⟩) := by
  intro symbol expression table bases
  have movable : ∀ operator, .operator operator ∈ expression.parts →
      operator ∈ movableOperators := by
    intro operator member
    simp only [expression, symbol, Part.number, List.mem_cons, Part.operator.injEq,
      reduceCtorEq, false_or, List.not_mem_nil, or_false] at member
    rcases member with rfl | rfl | rfl <;> decide
  have plain : (expression.evaluate .strict table).1 = .ok (.resolved ⟨.code, 0x38⟩) := by
    decide
  refine ⟨movable, plain, ?_⟩
  rw [expression.evaluate_relocate bases movable, plain]
  decide

end RelocExpr
