import RelocExpr.Proofs.Caching
import RelocExpr.Proofs.Linking
import RelocExpr.Proofs.ReadParts
import RelocExpr.Session

/-!
# Defects come of misuse

An expression that has been put into postfix order is evaluated and linked without a
defect, in every mode and with every table.  What is written for the linker is a
program with one result: its operators are known to the linker and find their
operands, and one value is left for the operator that stores it.

In a session every expression that is marked as ordered has been put into postfix
order, whatever was done before.  So a step has a defect exactly when it evaluates or
links an expression that has not been.
-/

namespace RelocExpr

/-! ## Programs with one result -/

/-- Number of operands. -/
def Operator.arity : Operator → Nat
  | .unary _ => 1
  | .binary _ => 2

namespace LinkItem

/-- Number of values on a stack after some items.  There is none when an operator is
unknown to the linker or does not find its operands. -/
def depth? : List LinkItem → Nat → Option Nat
  | [], depth => some depth
  | .address _ :: rest, depth => depth? rest (depth + 1)
  | .external _ :: rest, depth => depth? rest (depth + 1)
  | .operator code :: rest, depth =>
      match Operator.ofLinkCode? code with
      | none => none
      | some known =>
          if known.arity ≤ depth then depth? rest (depth - known.arity + 1) else none

/-- The items are a program that leaves one value. -/
def HasOneResult (items : List LinkItem) : Prop :=
  depth? items 0 = some 1

/-- The item stores a value, as a byte or as a word. -/
def isStore (item : LinkItem) : Bool :=
  item = store true || item = store false

/-- No operator of an expression stores. -/
theorem not_isStore_of_ofLinkCode? {code : UInt8} {known : Operator}
    (found : Operator.ofLinkCode? code = some known) :
    (LinkItem.operator code).isStore = false := by
  have byteUnknown : Operator.ofLinkCode? storeByte = none := by decide
  have wordUnknown : Operator.ofLinkCode? storeWord = none := by decide
  have notByte : code ≠ storeByte := by
    rintro rfl
    simp [byteUnknown] at found
  have notWord : code ≠ storeWord := by
    rintro rfl
    simp [wordUnknown] at found
  simp [isStore, store, notByte, notWord]

theorem not_isStore_of_depth? {items : List LinkItem} {depth last : Nat}
    (runs : depth? items depth = some last) : ∀ item ∈ items, item.isStore = false := by
  induction items generalizing depth with
  | nil => simp
  | cons first rest ih =>
      rw [List.forall_mem_cons]
      cases first with
      | address value => exact ⟨rfl, ih runs⟩
      | external name => exact ⟨rfl, ih runs⟩
      | operator code =>
          rw [depth?] at runs
          split at runs
          · cases runs
          · next found =>
              split at runs
              · exact ⟨not_isStore_of_ofLinkCode? found, ih runs⟩
              · cases runs

/-- The items put one value on a stack, whatever comes after them and is below it. -/
def Pushes (items : List LinkItem) : Prop :=
  ∀ rest depth, depth? (items ++ rest) depth = depth? rest (depth + 1)

namespace Pushes

variable {items left right : List LinkItem}

theorem hasOneResult (pushes : Pushes items) : HasOneResult items := by
  have whole := pushes [] 0
  rw [List.append_nil] at whole
  exact whole

theorem address (value : Address) : Pushes [.address value] := by
  intro rest depth
  rfl

theorem external (name : String) : Pushes [.external name] := by
  intro rest depth
  rfl

theorem unary {op : UnaryOp} {code : UInt8} (known : op.linkCode = some code)
    (operand : Pushes items) : Pushes (items ++ [.operator code]) := by
  intro rest depth
  have found : Operator.ofLinkCode? code = some (.unary op) :=
    Operator.ofLinkCode?_linkCode known
  rw [List.append_assoc, operand, List.singleton_append, depth?, found]
  simp [Operator.arity]

theorem binary (op : BinaryOp) (leftPushes : Pushes left) (rightPushes : Pushes right) :
    Pushes (left ++ right ++ [.operator op.linkCode]) := by
  intro rest depth
  have found : Operator.ofLinkCode? op.linkCode = some (.binary op) :=
    Operator.ofLinkCode?_linkCode rfl
  rw [List.append_assoc, List.append_assoc, leftPushes, rightPushes,
    List.singleton_append, depth?, found]
  simp [Operator.arity]

end Pushes

end LinkItem

/-- An operator applied to an operand leaves one value too. -/
theorem LinkOperand.pushes_applyUnary {op : UnaryOp} {operand applied : LinkOperand}
    (pushes : LinkItem.Pushes operand.items) (linked : operand.applyUnary op = .ok applied) :
    LinkItem.Pushes applied.items := by
  rw [applyUnary] at linked
  split at linked
  · next code known =>
      cases linked
      exact pushes.unary known
  · split at linked
    · split at linked
      · cases linked
        exact .address _
      · cases linked
    · cases linked

/-- The items of a tree leave its value. -/
theorem Tree.pushes_of_link {tree : Tree} {table later : SymbolTable}
    {operand : LinkOperand} (linked : tree.link table = (.ok operand, later)) :
    LinkItem.Pushes operand.items := by
  induction tree generalizing table later operand with
  | address value =>
      cases linked
      exact .address value
  | symbol ref =>
      simp only [link] at linked
      split at linked
      · cases linked
        exact .address _
      · cases linked
        exact .external _
      · cases linked
  | unary op inner ih =>
      rw [link] at linked
      split at linked
      · cases linked
      · next innerLinked =>
          have pushes := ih innerLinked
          rcases Prod.mk.inj linked with ⟨applied, -⟩
          split at applied
          · cases applied
            exact pushes
          · exact LinkOperand.pushes_applyUnary pushes applied
  | binary op left right leftIH rightIH =>
      rw [link] at linked
      split at linked
      · cases linked
      · next leftLinked =>
          split at linked
          · cases linked
          · next rightLinked =>
              cases linked
              exact .binary op (leftIH leftLinked) (rightIH rightLinked)

/-! ## Ordered expressions -/

/-- Types have a tag, or stay where they are, when no symbol has to have a value. -/
theorem Tree.exists_replaceTypes_strict (tree : Tree) (table : SymbolTable) :
    ∃ replaced later, tree.replaceTypes .strict table = (some replaced, later) := by
  induction tree generalizing table with
  | address value => exact ⟨_, _, rfl⟩
  | symbol ref => exact ⟨_, _, rfl⟩
  | unary op operand ih =>
      obtain ⟨replaced, later, found⟩ := ih table
      rw [replaceTypes, found]
      by_cases type : op = .type
      · simp only [if_pos type]
        cases replaced with
        | symbol ref =>
            simp only [typeTag?]
            cases (later.mention ref).valueOf ref <;> exact ⟨_, _, rfl⟩
        | address | unary | binary => exact ⟨_, _, rfl⟩
      · simp only [if_neg type]
        exact ⟨_, _, rfl⟩
  | binary op left right leftIH rightIH =>
      obtain ⟨leftReplaced, middle, leftFound⟩ := leftIH table
      obtain ⟨rightReplaced, later, rightFound⟩ := rightIH middle
      rw [replaceTypes, leftFound]
      simp only [rightFound]
      exact ⟨_, _, rfl⟩

namespace Expression.Ordered

variable {expression : Expression} {defect : Defect}

theorem run_ne_defect (ordered : expression.Ordered) {mode : EvaluationMode}
    (admitted : mode = .lookahead → expression.symbolRefs = []) (table : SymbolTable) :
    (expression.run mode table).1 ≠ .error (.defect defect) := by
  rcases ordered.parts_cases with
    empty | ⟨content, literal, single⟩ | ⟨tree, freeOfNul, parts⟩
  · simp [run, ordered.isPostfix, empty]
  · simp [run, ordered.isPostfix, single, foldTypes, runParts]
  · have treeAdmitted : tree.Admits mode := by
      intro lookahead
      rw [← symbolRefs_of_postOrder parts, admitted lookahead]
    rw [run_postOrder ordered.isPostfix parts freeOfNul treeAdmitted]
    cases (tree.run expression.isByte mode table).1 <;> simp [Except.mapError]

/-- An ordered expression is evaluated without a defect. -/
theorem evaluate_ne_defect (ordered : expression.Ordered) (mode : EvaluationMode)
    (table : SymbolTable) : (expression.evaluate mode table).1 ≠ .error (.defect defect) := by
  cases mode with
  | strict => exact ordered.run_ne_defect (by simp) _
  | bestEffort => exact ordered.run_ne_defect (by simp) _
  | lookahead =>
      rw [evaluate, hasSymbols]
      by_cases none : expression.symbolRefs = []
      · simp only [none, List.isEmpty_nil, Bool.not_true, Bool.false_eq_true, if_false]
        exact ordered.run_ne_defect (fun _ => none) table
      · simp [none]

/-- An ordered expression is linked without a defect. -/
theorem linkItems_ne_defect (ordered : expression.Ordered) (table : SymbolTable) :
    (expression.linkItems table).1 ≠ .error (.defect defect) := by
  rcases ordered.parts_cases with
    empty | ⟨content, literal, single⟩ | ⟨tree, freeOfNul, parts⟩
  · simp [linkItems, ordered.isPostfix, empty, foldTypes, linkParts, finishItems]
  · simp [linkItems, ordered.isPostfix, single, foldTypes, linkParts]
  · obtain ⟨replaced, middle, found⟩ := tree.exists_replaceTypes_strict table
    rw [linkItems_postOrder ordered.isPostfix parts, found]
    simp only
    split <;> simp

/-- The items of an ordered expression are a program with one result, and the one
operator that stores it. -/
theorem exists_program_of_linkItems (ordered : expression.Ordered) {table : SymbolTable}
    {items : List LinkItem} (linked : (expression.linkItems table).1 = .ok items) :
    ∃ program, items = program ++ [.store expression.isByte] ∧
      LinkItem.HasOneResult program := by
  rcases ordered.parts_cases with
    empty | ⟨content, literal, single⟩ | ⟨tree, freeOfNul, parts⟩
  · simp only [linkItems, ordered.isPostfix, empty, foldTypes, finishItems] at linked
    cases linked
    exact ⟨[.address (.absolute 0)], rfl, rfl⟩
  · simp only [linkItems, ordered.isPostfix, single] at linked
    cases linked
  · obtain ⟨replaced, middle, found⟩ := tree.exists_replaceTypes_strict table
    rw [linkItems_postOrder ordered.isPostfix parts, found] at linked
    simp only at linked
    split at linked
    · cases linked
    · next operand later linkFound =>
        cases linked
        exact ⟨operand.items, rfl, (Tree.pushes_of_link linkFound).hasOneResult⟩

end Expression.Ordered

/-! ## Expressions that come to be ordered -/

namespace Expression

variable {expression ordered : Expression}

theorem Ordered.withSize (ordered : expression.Ordered) (isByte : Bool) :
    (expression.withSize isByte).Ordered := by
  cases ordered with
  | empty => exact .empty isByte
  | @toPostfix raw _ unordered accepted =>
      have resized := toPostfix_withSize raw isByte
      rw [accepted] at resized
      exact @Ordered.toPostfix (raw.withSize isByte) _ unordered resized

/-- What is put into postfix order and marked so is ordered. -/
theorem ordered_of_toPostfix (sound : expression.isPostfix = true → expression.Ordered)
    (marked : expression.toPostfix.2.isPostfix = true) : expression.toPostfix.2.Ordered := by
  cases before : expression.isPostfix with
  | true =>
      rw [toPostfix_of_isPostfix before]
      exact sound before
  | false =>
      cases reordered : orderParts (simplifyParts expression.parts) with
      | error error => simp [toPostfix, before, reordered] at marked
      | ok parts =>
          have accepted := (toPostfix_eq_ok_iff before).2 ⟨parts, reordered, rfl⟩
          rw [accepted]
          exact .toPostfix before accepted

/-- A text that is read and put into postfix order is an ordered expression. -/
theorem ordered_of_compile {reading : Reading} {isByte : Bool} {text : String}
    (compiled : compile reading isByte text = .ok ordered) : ordered.Ordered := by
  rw [compile] at compiled
  split at compiled
  · cases compiled
  · next found =>
      split at compiled
      · cases compiled
      · next accepted =>
          cases compiled
          exact .toPostfix (isPostfix_of_read found) accepted

/-- An expression that is not ordered can not be evaluated, but a lookahead looks for
symbols before it finds out. -/
theorem evaluate_of_not_isPostfix (unordered : expression.isPostfix = false)
    (mode : EvaluationMode) (table : SymbolTable) :
    (expression.evaluate mode table).1 =
      if mode = .lookahead ∧ expression.hasSymbols = true then .ok .undecided
      else .error (.defect (.evaluatedUnordered expression.source)) := by
  cases mode with
  | strict | bestEffort => simp [evaluate, run, unordered]
  | lookahead =>
      cases symbols : expression.hasSymbols with
      | true => simp [evaluate, symbols]
      | false => simp [evaluate, symbols, run, unordered]

end Expression

/-! ## Sessions -/

/-- The defect that a step runs into. -/
def Reply.defect? : Reply → Option Defect
  | .evaluation (.error (.defect defect)) => some defect
  | .linkItems (.error (.defect defect)) => some defect
  | _ => none

theorem Reply.defect?_evaluation {outcome : Except Fault Evaluation} {defect : Defect} :
    (Reply.evaluation outcome).defect? = some defect ↔ outcome = .error (.defect defect) := by
  rcases outcome with (error | other) | value <;> simp [Reply.defect?]

theorem Reply.defect?_linkItems {outcome : Except Fault (List LinkItem)} {defect : Defect} :
    (Reply.linkItems outcome).defect? = some defect ↔ outcome = .error (.defect defect) := by
  rcases outcome with (error | other) | value <;> simp [Reply.defect?]

namespace Session

/-- The step evaluates or links an expression that was not put into postfix order.  A
lookahead of an expression with symbols does not get so far. -/
def Misuses (session : Session) : Step → Prop
  | .evaluate slot mode =>
      (session.slot slot).isPostfix = false ∧
        ¬(mode = .lookahead ∧ (session.slot slot).hasSymbols = true)
  | .link slot => (session.slot slot).isPostfix = false
  | _ => False

/-- The cache is coherent, and every expression that is marked as ordered is. -/
structure Sound (session : Session) : Prop where
  coherent : session.run.Coherent
  ordered : ∀ name, (session.slot name).isPostfix = true → (session.slot name).Ordered

theorem slot_setSlot (session : Session) (name other : String) (expression : Expression) :
    (session.setSlot name expression).slot other =
      if other = name then expression else session.slot other := by
  rw [slot, setSlot, Association.lookup_cons_eq_ite]
  by_cases same : other = name
  · simp [same]
  · rw [if_neg same, if_neg same, Association.lookup_filter_ne same, slot]

namespace Sound

variable {session : Session}

theorem start (settings : Settings) : Sound { run := { settings } } where
  coherent := AssemblyRun.coherent_of_empty settings
  ordered _ _ := .empty false

theorem setSlot (sound : session.Sound) {name : String} {expression : Expression}
    (ordered : expression.isPostfix = true → expression.Ordered) :
    (session.setSlot name expression).Sound where
  coherent := sound.coherent
  ordered other := by
    rw [slot_setSlot]
    split
    · exact ordered
    · exact sound.ordered other

theorem step (sound : session.Sound) (step : Step) : (session.step step).2.Sound := by
  have withRun {run : AssemblyRun} (coherent : run.Coherent) :
      ({ session with run } : Session).Sound := ⟨coherent, sound.ordered⟩
  cases step with
  | parse slot text data isByte =>
      have read : (session.run.parse session.table.location text data isByte).1 = _ :=
        sound.coherent.parse_fst
      have coherent : (session.run.parse session.table.location text data isByte).2.Coherent :=
        sound.coherent.parse_snd
      rw [Session.step]
      split
      · next parsed =>
          rw [parsed] at coherent
          exact withRun coherent
      · next parsed =>
          rw [parsed] at coherent read
          exact (withRun coherent).setSlot fun _ => Expression.ordered_of_compile read.symm
  | read slot text data isByte =>
      simp only [Session.step]
      split
      · exact sound
      · next found =>
          refine sound.setSlot fun marked => ?_
          simp [Expression.isPostfix_of_read found] at marked
  | empty slot => exact sound.setSlot fun _ => .empty false
  | restart => exact withRun (.restart session.run)
  | setRadix base =>
      have coherent := sound.coherent.perform (.setRadix base)
      rw [AssemblyRun.perform] at coherent
      rw [Session.step]
      split
      · exact sound
      · next changed =>
          rw [changed] at coherent
          exact withRun coherent
  | order slot => exact sound.setSlot (Expression.ordered_of_toPostfix (sound.ordered slot))
  | setSize slot isByte =>
      exact sound.setSlot fun marked => (sound.ordered slot marked).withSize isByte
  -- The other steps change neither the run nor a slot.
  | _ => exact ⟨sound.coherent, sound.ordered⟩

theorem steps (sound : session.Sound) (history : List Step) :
    (session.steps history).2.Sound := by
  induction history generalizing session with
  | nil => exact sound
  | cons first rest ih => exact ih (sound.step first)

end Sound

/-- Only an evaluation or a link can run into a defect. -/
theorem defect?_step_eq_none (session : Session) {step : Step}
    (notEvaluate : ∀ slot mode, step ≠ .evaluate slot mode)
    (notLink : ∀ slot, step ≠ .link slot) : (session.step step).1.defect? = none := by
  cases step with
  | parse slot text data isByte =>
      rw [Session.step]
      split <;> rfl
  | read slot text data isByte =>
      simp only [Session.step]
      split <;> rfl
  | setRadix base =>
      rw [Session.step]
      split <;> rfl
  | evaluate slot mode => exact absurd rfl (notEvaluate slot mode)
  | link slot => exact absurd rfl (notLink slot)
  | _ => rfl

/-- A step of a sound session runs into a defect exactly when it misuses an
expression. -/
theorem exists_defect?_step_iff {session : Session} (sound : session.Sound) (step : Step) :
    (∃ defect, (session.step step).1.defect? = some defect) ↔ session.Misuses step := by
  cases step with
  | evaluate slot mode =>
      simp only [Session.step, Reply.defect?_evaluation, Misuses]
      cases marked : (session.slot slot).isPostfix with
      | true =>
          have ordered := sound.ordered slot marked
          simp [ordered.evaluate_ne_defect]
      | false =>
          rw [Expression.evaluate_of_not_isPostfix marked]
          split <;> simp_all
  | link slot =>
      simp only [Session.step, Reply.defect?_linkItems, Misuses]
      cases marked : (session.slot slot).isPostfix with
      | true =>
          have ordered := sound.ordered slot marked
          simp [ordered.linkItems_ne_defect]
      | false => simp [Expression.linkItems, marked]
  | _ => simp [defect?_step_eq_none, Misuses]

/-- After any steps a step runs into a defect exactly when it evaluates or links an
expression that was not put into postfix order; a lookahead of such an expression that
has symbols is undecided instead.  In particular an expression that was put into postfix
order is evaluated and linked without a defect, and its link items are a program with one
result, without an operator that stores, and one such operator at the end. -/
theorem defect_iff_misuses_after_steps (settings : Settings) (history : List Step) :
    let session := (({ run := { settings } } : Session).steps history).2
    (∀ step, (∃ defect, (session.step step).1.defect? = some defect) ↔
      session.Misuses step) ∧
      (∀ name, (session.slot name).isPostfix = false →
        (session.slot name).hasSymbols = true →
          session.step (.evaluate name .lookahead) = (.evaluation (.ok .undecided), session)) ∧
      (∀ name, (session.slot name).isPostfix = true → (session.slot name).Ordered) ∧
      ∀ expression : Expression, expression.Ordered → ∀ table : SymbolTable,
        (∀ mode defect, (expression.evaluate mode table).1 ≠ .error (.defect defect)) ∧
        (∀ defect, (expression.linkItems table).1 ≠ .error (.defect defect)) ∧
        ∀ items, (expression.linkItems table).1 = .ok items →
          ∃ program, items = program ++ [.store expression.isByte] ∧
            LinkItem.HasOneResult program ∧ ∀ item ∈ program, item.isStore = false := by
  intro session
  have sound : session.Sound := (Sound.start settings).steps history
  refine ⟨exists_defect?_step_iff sound, ?_, sound.ordered, ?_⟩
  · intro name unordered symbols
    simp [Session.step, Expression.evaluate, symbols]
  · intro expression ordered table
    refine ⟨fun mode defect => ordered.evaluate_ne_defect mode table,
      fun defect => ordered.linkItems_ne_defect table, ?_⟩
    intro items linked
    obtain ⟨program, rfl, oneResult⟩ := ordered.exists_program_of_linkItems linked
    exact ⟨program, rfl, oneResult, LinkItem.not_isStore_of_depth? oneResult⟩

/-- The first text ends with an operator, so its expression stays unordered and can not be
linked.  The second one is ordered and is linked without a defect. -/
theorem defect_of_link_after_failed_order :
    let history : List Step :=
      [.read "e" "TYPE X +" false false, .order "e", .parse "f" "TYPE X## / 2" false true]
    let session := (({ run := { settings := {} } } : Session).steps history).2
    (∃ defect, (session.step (.link "e")).1.defect? = some defect) ∧
      ¬∃ defect, (session.step (.link "f")).1.defect? = some defect := by
  intro history session
  have unordered : (session.slot "e").isPostfix = false := by decide +kernel
  have ordered : (session.slot "f").isPostfix = true := by decide +kernel
  have misuse := (defect_iff_misuses_after_steps {} history).1
  constructor
  · exact (misuse (.link "e")).2 unordered
  · rw [misuse (.link "f")]
    simp [Misuses, session, ordered]

end Session

end RelocExpr
