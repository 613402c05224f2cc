import RelocExpr.SymbolTable

/-!
# Mentioned symbols

To mention a symbol that is known or external changes nothing, and what a table
knows of a symbol stays when others are mentioned.  When several symbols are mentioned,
the more they are, the more a table knows: an unknown symbol becomes external when one of
the references marks it.
-/

namespace RelocExpr.SymbolTable

theorem put_eq_self {fresh value : SymbolValue} {change : SymbolValue → SymbolValue}
    {name : String} {entries : List (String × SymbolValue)}
    (found : entries.lookup name = some value) (same : change value = value) :
    put fresh change name entries = entries := by
  induction entries with
  | nil => cases found
  | cons entry rest ih =>
      rcases entry with ⟨first, firstValue⟩
      rw [Association.lookup_cons_eq_ite] at found
      rw [put]
      by_cases head : name = first
      · rw [if_pos head] at found
        cases found
        rw [if_pos head.symm, same]
      · rw [if_neg head] at found
        rw [if_neg (Ne.symm head), ih found]

variable {table : SymbolTable} {ref other : SymbolRef}

theorem lookup_of_valueOf_ne_unknown (settled : table.valueOf ref ≠ .unknown) :
    table.entries.lookup (table.qualifiedName ref) = some (table.valueOf ref) := by
  rw [valueOf] at settled ⊢
  cases found : table.entries.lookup (table.qualifiedName ref) with
  | none => simp [found] at settled
  | some value => rfl

/-- What a reference changes about a value that is not unknown: nothing. -/
theorem change_eq_self {value : SymbolValue} (settled : value ≠ .unknown)
    (external : Bool) :
    (if external then SymbolValue.markExternal else id) value = value := by
  cases external with
  | false => rfl
  | true =>
      cases value with
      | unknown => contradiction
      | known | external => rfl

theorem mention_eq_self (settled : table.valueOf ref ≠ .unknown) :
    table.mention ref = table := by
  have found := lookup_of_valueOf_ne_unknown settled
  rw [mention, put_eq_self found (change_eq_self settled ref.external)]

theorem qualifiedName_of_moduleName {later earlier : SymbolTable}
    (same : later.moduleName = earlier.moduleName) (ref : SymbolRef) :
    later.qualifiedName ref = earlier.qualifiedName ref := by
  rw [qualifiedName, qualifiedName, same]

/-- A later table knows what an earlier one does. -/
structure Extends (later earlier : SymbolTable) : Prop where
  moduleName : later.moduleName = earlier.moduleName
  valueOf : ∀ ref, earlier.valueOf ref ≠ .unknown → later.valueOf ref = earlier.valueOf ref

namespace Extends

theorem refl (table : SymbolTable) : table.Extends table where
  moduleName := rfl
  valueOf _ _ := rfl

theorem trans {last later earlier : SymbolTable} (second : last.Extends later)
    (first : later.Extends earlier) : last.Extends earlier where
  moduleName := second.moduleName.trans first.moduleName
  valueOf ref settled := by
    have middle := first.valueOf ref settled
    rw [second.valueOf ref (by rwa [middle]), middle]

theorem qualifiedName {later earlier : SymbolTable} (extends_ : later.Extends earlier)
    (ref : SymbolRef) : later.qualifiedName ref = earlier.qualifiedName ref :=
  qualifiedName_of_moduleName extends_.moduleName ref

/-- The known and the external symbols of a table are what it knows. -/
theorem of_lookup {later earlier : SymbolTable}
    (same : later.moduleName = earlier.moduleName)
    (kept : ∀ name value, earlier.entries.lookup name = some value → value ≠ .unknown →
      later.entries.lookup name = some value) : later.Extends earlier where
  moduleName := same
  valueOf ref settled := by
    have found := kept _ _ (lookup_of_valueOf_ne_unknown settled) settled
    rw [SymbolTable.valueOf, qualifiedName_of_moduleName same, found, Option.getD_some]

theorem mention (table : SymbolTable) (ref : SymbolRef) :
    (table.mention ref).Extends table where
  moduleName := rfl
  valueOf other settled := by
    have found := lookup_of_valueOf_ne_unknown settled
    rw [SymbolTable.valueOf, qualifiedName_mention, SymbolTable.mention, lookup_put]
    by_cases same : table.qualifiedName other = table.qualifiedName ref
    · rw [if_pos same, ← same, found, Option.elim_some,
        change_eq_self settled ref.external]
      rfl
    · rw [if_neg same]
      rfl

end Extends

/-! ## Several symbols -/

/-- Some reference to the name says that another module defines it. -/
def Marks (table : SymbolTable) (refs : List SymbolRef) (name : String) : Prop :=
  ∃ ref ∈ refs, table.qualifiedName ref = name ∧ ref.external = true

instance (table : SymbolTable) (refs : List SymbolRef) (name : String) :
    Decidable (table.Marks refs name) :=
  inferInstanceAs (Decidable (∃ ref ∈ refs, table.qualifiedName ref = name ∧ ref.external = true))

section Marks

variable {refs rest more : List SymbolRef} {name : String}

theorem marks_cons :
    table.Marks (ref :: rest) name ↔
      (table.qualifiedName ref = name ∧ ref.external = true) ∨ table.Marks rest name := by
  simp [Marks]

theorem marks_append :
    table.Marks (refs ++ more) name ↔ table.Marks refs name ∨ table.Marks more name := by
  simp only [Marks, List.mem_append, or_and_right, exists_or]

@[simp] theorem marks_mention :
    (table.mention ref).Marks refs name ↔ table.Marks refs name := Iff.rfl

theorem Marks.mono (marks : table.Marks refs name) (subset : refs ⊆ more) :
    table.Marks more name := by
  rcases marks with ⟨ref, member, marked⟩
  exact ⟨ref, subset member, marked⟩

end Marks

/-- To mention a symbol makes an unknown one external, if the reference says so, and
changes no other value. -/
theorem valueOf_mention (table : SymbolTable) (ref other : SymbolRef) :
    (table.mention ref).valueOf other =
      if table.valueOf other = .unknown ∧
          table.qualifiedName ref = table.qualifiedName other ∧ ref.external = true then
        .external
      else table.valueOf other := by
  rw [valueOf, qualifiedName_mention, mention, lookup_put, valueOf]
  by_cases same : table.qualifiedName other = table.qualifiedName ref
  · rw [if_pos same, same]
    cases ref.external with
    | false => cases table.entries.lookup (table.qualifiedName ref) <;> simp [SymbolValue.fresh]
    | true =>
        cases table.entries.lookup (table.qualifiedName ref) with
        | none => simp [SymbolValue.fresh]
        | some value => cases value <;> simp [SymbolValue.markExternal]
  · simp [same, Ne.symm same]

@[simp] theorem mentionAll_nil (table : SymbolTable) : table.mentionAll [] = table := rfl

@[simp] theorem mentionAll_cons (table : SymbolTable) (ref : SymbolRef)
    (rest : List SymbolRef) :
    table.mentionAll (ref :: rest) = (table.mention ref).mentionAll rest := rfl

theorem mentionAll_append (table : SymbolTable) (first second : List SymbolRef) :
    table.mentionAll (first ++ second) = (table.mentionAll first).mentionAll second :=
  List.foldl_append

/-- The references have been mentioned, and to mention one again changes nothing. -/
def Covers (table : SymbolTable) (refs : List SymbolRef) : Prop :=
  ∀ ref ∈ refs, table.mention ref = table

namespace Covers

variable {refs rest : List SymbolRef}

theorem of_settled (settled : ∀ ref ∈ refs, table.valueOf ref ≠ .unknown) :
    table.Covers refs := by
  intro ref member
  exact mention_eq_self (settled ref member)

theorem subset (covers : table.Covers refs) (subset : rest ⊆ refs) : table.Covers rest := by
  intro ref member
  exact covers ref (subset member)

theorem mentionAll_eq (covers : table.Covers refs) : table.mentionAll refs = table := by
  induction refs with
  | nil => rfl
  | cons ref rest ih =>
      rw [mentionAll_cons, covers ref (List.mem_cons_self ..)]
      exact ih (covers.subset (List.subset_cons_self ..))

end Covers

theorem mentionAll_eq_self {refs : List SymbolRef}
    (settled : ∀ ref ∈ refs, table.valueOf ref ≠ .unknown) :
    table.mentionAll refs = table :=
  (Covers.of_settled settled).mentionAll_eq

@[simp] theorem moduleName_mentionAll (table : SymbolTable) (refs : List SymbolRef) :
    (table.mentionAll refs).moduleName = table.moduleName := by
  induction refs generalizing table with
  | nil => rfl
  | cons ref rest ih => rw [mentionAll_cons, ih, moduleName_mention]

/-- An unknown symbol becomes external when some reference to its name says so. -/
theorem valueOf_mentionAll (table : SymbolTable) (refs : List SymbolRef) (other : SymbolRef) :
    (table.mentionAll refs).valueOf other =
      if table.valueOf other = .unknown ∧ table.Marks refs (table.qualifiedName other) then
        .external
      else table.valueOf other := by
  induction refs generalizing table with
  | nil => simp [Marks]
  | cons ref rest ih =>
      rw [mentionAll_cons, ih, valueOf_mention]
      by_cases unknown : table.valueOf other = .unknown
      · by_cases marks : table.qualifiedName ref = table.qualifiedName other ∧
            ref.external = true
        · simp [unknown, marks, marks_cons]
        · simp [unknown, marks, marks_cons]
      · simp [unknown]

namespace Extends

theorem mentionAll (table : SymbolTable) (refs : List SymbolRef) :
    (table.mentionAll refs).Extends table where
  moduleName := moduleName_mentionAll table refs
  valueOf other settled := by
    rw [valueOf_mentionAll]
    simp [settled]

/-- More references only make more unknown symbols external. -/
theorem mentionAll_of_subset {table : SymbolTable} {refs more : List SymbolRef}
    (subset : refs ⊆ more) : (table.mentionAll more).Extends (table.mentionAll refs) where
  moduleName := by simp
  valueOf other settled := by
    rw [valueOf_mentionAll] at settled
    rw [valueOf_mentionAll, valueOf_mentionAll]
    by_cases marked : table.valueOf other = .unknown ∧
        table.Marks refs (table.qualifiedName other)
    · rw [if_pos marked, if_pos ⟨marked.1, marked.2.mono subset⟩]
    · rw [if_neg marked] at settled
      simp [settled]

end Extends

/-- The later table comes from the earlier one when some symbols among the parts are
mentioned. -/
def MentionsAmong (parts : List Part) (earlier later : SymbolTable) : Prop :=
  ∃ refs : List SymbolRef, (∀ ref ∈ refs, .symbol ref ∈ parts) ∧ later = earlier.mentionAll refs

namespace MentionsAmong

variable {parts more : List Part} {earlier middle later : SymbolTable}

theorem refl (parts : List Part) (table : SymbolTable) : MentionsAmong parts table table :=
  ⟨[], by simp, rfl⟩

theorem single {ref : SymbolRef} (member : .symbol ref ∈ parts) (table : SymbolTable) :
    MentionsAmong parts table (table.mention ref) :=
  ⟨[ref], by simpa using member, rfl⟩

theorem trans (first : MentionsAmong parts earlier middle)
    (second : MentionsAmong parts middle later) : MentionsAmong parts earlier later := by
  obtain ⟨refs, among, rfl⟩ := first
  obtain ⟨moreRefs, moreAmong, rfl⟩ := second
  refine ⟨refs ++ moreRefs, ?_, (mentionAll_append ..).symm⟩
  intro ref member
  rcases List.mem_append.1 member with inner | inner
  · exact among ref inner
  · exact moreAmong ref inner

theorem mono (mentions : MentionsAmong parts earlier later)
    (subset : ∀ ref : SymbolRef, .symbol ref ∈ parts → .symbol ref ∈ more) :
    MentionsAmong more earlier later := by
  obtain ⟨refs, among, equal⟩ := mentions
  exact ⟨refs, fun ref member => subset ref (among ref member), equal⟩

theorem extends_ (mentions : MentionsAmong parts earlier later) : later.Extends earlier := by
  obtain ⟨refs, -, rfl⟩ := mentions
  exact .mentionAll earlier refs

end MentionsAmong

end RelocExpr.SymbolTable
