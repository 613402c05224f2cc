import RelocExpr.Address
import RelocExpr.Association
import RelocExpr.Part

/-!
# Symbol tables

A table has its symbols in the order in which they were first mentioned.  Names
are upper-cased, and inside a module a name is preceded by that of the module,
unless the reference is to a root or external symbol.  A value only grows: an
unknown symbol may become external, and either may become known.
-/

namespace RelocExpr

/-- What is known of a symbol. -/
inductive SymbolValue where
  | known (address : Address)
  /-- Mentioned but not defined. -/
  | unknown
  /-- Defined in another module. -/
  | external
  deriving DecidableEq, Repr, Inhabited

namespace SymbolValue

/-- The address, if it is known. -/
def address? : SymbolValue → Option Address
  | .known address => some address
  | _ => none

/-- An unknown symbol that is marked as external becomes external. -/
def markExternal : SymbolValue → SymbolValue
  | .unknown => .external
  | value => value

/-- The value of a symbol that is mentioned for the first time. -/
def fresh (external : Bool) : SymbolValue :=
  if external then .external else .unknown

end SymbolValue

/-- The symbols of a program, the current module and the current location. -/
structure SymbolTable where
  entries : List (String × SymbolValue) := []
  moduleName : Option String := none
  /-- The address that `$` stands for. -/
  location : Address := ⟨.code, 0⟩
  deriving DecidableEq, Repr, Inhabited

namespace SymbolTable

/-- Change the value of a name, which is put at the end if it is new. -/
def put (fresh : SymbolValue) (change : SymbolValue → SymbolValue)
    (name : String) : List (String × SymbolValue) → List (String × SymbolValue)
  | [] => [(name, fresh)]
  | (other, value) :: rest =>
      if other = name then (other, change value) :: rest
      else (other, value) :: put fresh change name rest

/-- Only the value of the name itself is changed. -/
theorem lookup_put (fresh : SymbolValue) (change : SymbolValue → SymbolValue)
    (name other : String) (entries : List (String × SymbolValue)) :
    (put fresh change name entries).lookup other =
      if other = name then some ((entries.lookup name).elim fresh change)
      else entries.lookup other := by
  induction entries with
  | nil => simp [put, Association.lookup_cons_eq_ite]
  | cons entry rest ih =>
      obtain ⟨first, value⟩ := entry
      unfold put
      by_cases head : first = name
      · subst head
        by_cases same : other = first <;>
          simp [Association.lookup_cons_eq_ite, same]
      · by_cases same : other = first
        · subst same
          simp [head]
        · simp [Association.lookup_cons_eq_ite, head, same, ih, Ne.symm head]

/-- The names keep their places, and a new one comes last. -/
theorem map_fst_put (fresh : SymbolValue) (change : SymbolValue → SymbolValue)
    (name : String) (entries : List (String × SymbolValue)) :
    (put fresh change name entries).map Prod.fst =
      if name ∈ entries.map Prod.fst then entries.map Prod.fst
      else entries.map Prod.fst ++ [name] := by
  induction entries with
  | nil => simp [put]
  | cons entry rest ih =>
      obtain ⟨first, value⟩ := entry
      unfold put
      by_cases head : first = name
      · simp [head]
      · by_cases later : name ∈ rest.map Prod.fst <;>
          simp_all [Ne.symm head]

/-- The name under which a reference is found in the table. -/
def qualifiedName (table : SymbolTable) (ref : SymbolRef) : String :=
  match table.moduleName with
  | some moduleName =>
      if ref.root || ref.external then Text.upper ref.name
      else moduleName ++ "." ++ Text.upper ref.name
  | none => Text.upper ref.name

/-- The value of a qualified name. -/
def get? (table : SymbolTable) (name : String) : Option SymbolValue :=
  table.entries.lookup (Text.upper name)

/-- Enter a module, or leave it. -/
def setModule (table : SymbolTable) (name : Option String) : SymbolTable :=
  { table with moduleName := name.map Text.upper }

def setLocation (table : SymbolTable) (location : Address) : SymbolTable :=
  { table with location }

/-- Give a name of the current module a value. -/
def define (table : SymbolTable) (name : String) (address : Address) :
    SymbolTable :=
  let qualified := table.qualifiedName { name, external := false, root := false }
  { table with
    entries :=
      put (.known address) (fun _ => .known address) qualified table.entries }

/-- Say that a name belongs to another module; a known one stays known. -/
def declareExternal (table : SymbolTable) (name : String) : SymbolTable :=
  { table with
    entries :=
      put .external SymbolValue.markExternal (Text.upper name) table.entries }

/-- Mention a symbol.  It is entered if it is new, and an unknown one becomes
external if the reference says so. -/
def mention (table : SymbolTable) (ref : SymbolRef) : SymbolTable :=
  let change := if ref.external then SymbolValue.markExternal else id
  { table with
    entries :=
      put (.fresh ref.external) change (table.qualifiedName ref) table.entries }

/-- The value of a reference that has been mentioned. -/
def valueOf (table : SymbolTable) (ref : SymbolRef) : SymbolValue :=
  (table.entries.lookup (table.qualifiedName ref)).getD .unknown

/-- Mention symbols one after the other. -/
def mentionAll (table : SymbolTable) (refs : List SymbolRef) : SymbolTable :=
  refs.foldl mention table

@[simp] theorem moduleName_mention (table : SymbolTable) (ref : SymbolRef) :
    (table.mention ref).moduleName = table.moduleName := rfl

@[simp] theorem location_mention (table : SymbolTable) (ref : SymbolRef) :
    (table.mention ref).location = table.location := rfl

@[simp] theorem qualifiedName_mention (table : SymbolTable)
    (ref other : SymbolRef) :
    (table.mention ref).qualifiedName other = table.qualifiedName other := rfl

end SymbolTable

end RelocExpr
