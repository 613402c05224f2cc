import RelocExpr.Command
import RelocExpr.Proofs.Caching
import RelocExpr.Proofs.NulValue
import RelocExpr.Proofs.SegmentTags

/-!
# Values on the command line

A value is the expression that it spells, and a segment after it replaces the one of its
address.  This is so as long as the last colon of the text has nothing before it or stands
before a segment: at any other colon the text is split all the same.  Then the text before
the colon ends where an operand is missing, or inside a string literal, and there is no
value.
-/

namespace RelocExpr

/-! ## An expression before a colon -/

/-- An operand after parts that make up an expression is misplaced. -/
theorem eq_nil_of_orderParts_append {before after ordered whole : List Part} {ref : SymbolRef}
    (accepted : orderParts before = .ok ordered)
    (together : orderParts (before ++ .symbol ref :: after) = .ok whole) : before = [] := by
  by_contra notEmpty
  obtain ⟨first, rest, rfl⟩ := List.exists_cons_of_ne_nil notEmpty
  obtain ⟨second, others, split⟩ : ∃ second others,
      rest ++ .symbol ref :: after = second :: others :=
    List.exists_cons_of_ne_nil (by simp)
  have checked := (orderParts_eq_ok_iff.1 together).1
  rw [List.cons_append, split, checkParts_eq_ok_iff, ← split] at checked
  obtain ⟨noBytes, neighbours, -⟩ := checked
  have notString : ∀ content literal, first :: rest ≠ [.bytes content literal] := by
    intro content literal single
    rw [(List.cons.inj single).1] at noBytes
    simp [Part.isBytes] at noBytes
  obtain ⟨tree, reads⟩ := exists_reads_of_orderParts accepted notEmpty notString
  obtain ⟨last, scans⟩ := exists_scans_of_derives (derives_of_reads reads).1
  have adjoin := checkNeighbours_eq_ok_iff.1 neighbours
  rw [← List.cons_append, scans.adjoin none _ rfl] at adjoin
  have precedes := scans.precedes
  rcases adjoin.1 with start | ⟨op, isOperator⟩ | isOpening
  · cases start
  · rw [isOperator] at precedes
    cases precedes
  · rw [isOpening] at precedes
    cases precedes

section

variable {reading : Reading} {afterOperand isByte : Bool} {value tag : List Char}

/-- A colon begins a symbol. -/
theorem exists_symbol_of_colon {parts : List Part}
    (read : readParts reading afterOperand (':' :: tag) = .ok parts) :
    ∃ ref later, parts = .symbol ref :: later := by
  have notBlank : Text.isBlank ':' = false := by decide
  cases scanned : Lexeme.scan reading afterOperand ':' tag with
  | error error =>
      rw [readParts_cons_of_scan_error notBlank scanned] at read
      contradiction
  | ok lexeme =>
      rw [readParts_cons_of_scan notBlank scanned] at read
      obtain ⟨later, -, rfl⟩ := Except.map_eq_ok_iff.1 read
      have isWord : Lexeme.scanWord reading ':' tag = .ok lexeme := scanned
      obtain ⟨more, taken, -⟩ := Lexeme.covers_scanWord isWord
      obtain ⟨front, _, left⟩ := lexeme
      cases taken
      rcases Lexeme.scanWord_eq_ok_cases isWord with
        ⟨start, others, _, -, -, -, -, isRoot⟩ | ⟨noColon, -⟩
      · obtain ⟨ref, isSymbol⟩ := Lexeme.exists_symbol_of_word_root reading start others
        rw [isRoot] at isSymbol
        exact ⟨ref, later, congrArg (· ++ later) isSymbol⟩
      · exact absurd rfl noColon

theorem Expression.exists_readParts_of_compile {text : List Char} {expression : Expression}
    (compiled : compile reading isByte (.ofList text) = .ok expression) :
    ∃ parts ordered, readParts reading false (Text.trim Text.isBlank text) = .ok parts ∧
      orderParts (simplifyParts parts) = .ok ordered := by
  cases read : readParts reading false (Text.trim Text.isBlank text) with
  | error error =>
      rw [← String.toList_ofList (l := text)] at read
      rw [compile_of_readParts_error read] at compiled
      contradiction
  | ok parts =>
      rw [← String.toList_ofList (l := text)] at read
      rw [compile_of_readParts read] at compiled
      obtain ⟨ordered, accepted, -⟩ := Except.map_eq_ok_iff.1 compiled
      exact ⟨parts, ordered, rfl, accepted⟩

/-- An expression does not go on with a colon, unless `NUL` is in it. -/
theorem Expression.forall_blank_of_compile_colon {expression whole : Expression}
    (compiled : compile reading isByte (.ofList value) = .ok expression)
    (together : compile reading isByte (.ofList (value ++ ':' :: tag)) = .ok whole)
    (noNul : ∀ parts,
      readParts reading false (Text.trim Text.isBlank (value ++ ':' :: tag)) = .ok parts →
        .operator (.unary .nul) ∉ parts) :
    ∀ character ∈ value, Text.isBlank character = true := by
  obtain ⟨before, _, readTrimmed, accepted⟩ := exists_readParts_of_compile compiled
  obtain ⟨parts, _, readWhole, acceptedWhole⟩ := exists_readParts_of_compile together
  have noNulWhole := noNul parts readWhole
  have readWhole := readParts_of_trim readWhole noNulWhole
  have stops := Lexeme.stops_colon tag
  have noNulBefore : .operator (.unary .nul) ∉ before := by
    intro hasNul
    obtain ⟨trail, blank, split⟩ := Text.exists_eq_append_trim Text.isBlank value
    obtain ⟨others, readOthers, nulOthers⟩ :=
      exists_readParts_append_of_nul readTrimmed hasNul (stops.append_of_blank blank)
    rw [split, List.append_assoc, List.append_assoc,
      readParts_append_of_blank blank_of_mem_takeWhile, readOthers] at readWhole
    cases readWhole
    exact noNulWhole nulOthers
  have readValue := readParts_of_trim readTrimmed noNulBefore
  rw [readParts_append readValue noNulBefore (.inl stops)] at readWhole
  obtain ⟨later, readLater, rfl⟩ := Except.map_eq_ok_iff.1 readWhole
  obtain ⟨ref, others, rfl⟩ := exists_symbol_of_colon (Except.mapError_eq_ok_iff.1 readLater)
  rw [simplifyParts_of_noNul noNulWhole, List.map_append, List.map_cons] at acceptedWhole
  rw [simplifyParts_of_noNul noNulBefore] at accepted
  obtain rfl := List.map_eq_nil_iff.1 (eq_nil_of_orderParts_append accepted acceptedWhole)
  exact forall_blank_of_readParts readValue

end

/-- What is read has white space alone only where it has blanks alone. -/
theorem Expression.all_isWhite_of_compile {reading : Reading} {isByte : Bool} {text : List Char}
    {expression : Expression} (compiled : compile reading isByte (.ofList text) = .ok expression)
    (notBlank : ∃ character ∈ text, Text.isBlank character = false) :
    text.all Text.isWhite = false := by
  obtain ⟨parts, _, read, -⟩ := exists_readParts_of_compile compiled
  obtain ⟨trail, blank, split⟩ := Text.exists_eq_append_trim Text.isBlank text
  cases found : (Text.trim Text.isBlank text).dropWhile Text.isBlank with
  | nil =>
      obtain ⟨character, member, notBlank⟩ := notBlank
      rw [split, List.mem_append, List.mem_append] at member
      have isBlank : Text.isBlank character = true := by
        rcases member with (leads | inside) | trails
        · exact blank_of_mem_takeWhile character leads
        · exact List.dropWhile_eq_nil_iff.1 found character inside
        · exact blank character trails
      rw [isBlank] at notBlank
      contradiction
  | cons first rest =>
      by_contra allWhite
      have member : first ∈ text := by
        apply mem_of_mem_trim
        exact List.dropWhile_sublist _ |>.subset (found ▸ List.mem_cons_self)
      have white := List.all_eq_true.1 (Bool.eq_true_of_not_eq_false allWhite) first member
      rw [readParts_of_scan_error found (Lexeme.scan_of_isWhite white ..)] at read
      contradiction

namespace Command

variable {text value tag : List Char} {segment : Segment} {session : Session}
variable {address : Address} {colored : Bool}

/-! ## Sessions of the command line -/

theorem coherent_readAddress (coherent : session.run.Coherent) (colored : Bool)
    (source : String) : (readAddress colored session source).2.run.Coherent := by
  rw [readAddress]
  split
  · exact coherent
  · next text segment? _ =>
      have kept : (session.run.parse session.table.location text false false).2.Coherent :=
        coherent.parse_snd
      split
      · next read =>
          rw [read] at kept
          exact kept
      · next read =>
          rw [read] at kept
          dsimp only
          split <;> exact kept

theorem coherent_of_define {later : Session} {definition : String}
    (coherent : session.run.Coherent) (defined : define colored session definition = .ok later) :
    later.run.Coherent := by
  rw [define] at defined
  dsimp only at defined
  split at defined
  · contradiction
  · next value _ =>
      have kept := coherent_readAddress coherent colored (.ofList value)
      split at defined
      · contradiction
      · next read =>
          rw [read] at kept
          cases defined
          exact kept

theorem coherent_of_setLocation {later : Session} {source : String}
    (coherent : session.run.Coherent) (placed : setLocation colored session source = .ok later) :
    later.run.Coherent := by
  have kept := coherent_readAddress coherent colored source
  rw [setLocation] at placed
  split at placed
  · contradiction
  · next read =>
      rw [read] at kept
      cases placed
      exact kept

theorem coherent_of_foldlM_define {later : Session} {definitions : List String}
    (coherent : session.run.Coherent)
    (defined : definitions.foldlM (define colored) session = .ok later) :
    later.run.Coherent := by
  induction definitions generalizing session with
  | nil =>
      cases defined
      exact coherent
  | cons first rest ih =>
      rw [List.foldlM_cons] at defined
      obtain ⟨next, here, defined⟩ := Except.bind_eq_ok_iff.1 defined
      exact ih (coherent_of_define coherent here) defined

/-- Every session of the command line reads its values as if there was no cache. -/
theorem coherent_of_openSession {environment : Environment} {options : Options}
    (opened : openSession environment options = .ok session) : session.run.Coherent := by
  rw [openSession] at opened
  obtain ⟨settings, -, opened⟩ := Except.bind_eq_ok_iff.1 opened
  have coherent := AssemblyRun.coherent_of_empty settings
  cases location : options.location? with
  | none =>
      simp only [location, pure_bind] at opened
      exact coherent_of_foldlM_define coherent opened
  | some source =>
      simp only [location] at opened
      obtain ⟨placed, isPlaced, defined⟩ := Except.bind_eq_ok_iff.1 opened
      exact coherent_of_foldlM_define (coherent_of_setLocation coherent isPlaced) defined

/-! ## Segments and values -/

/-- The last colon of the text has something before it. -/
def HasInnerColon (text : List Char) : Prop :=
  ∃ value tag, text = value ++ ':' :: tag ∧ ':' ∉ tag ∧ value.all Text.isWhite = false

theorem splitSegment_append (noColon : ':' ∉ tag) (notWhite : value.all Text.isWhite = false)
    (known : segmentOfTag? tag = some segment) :
    splitSegment (.ofList (value ++ ':' :: tag)) = .ok (.ofList value, some segment) := by
  rw [splitSegment, String.toList_ofList, splitLastColon?_append noColon]
  simp only [notWhite, known]
  rfl

theorem splitSegment_append_of_unknown (noColon : ':' ∉ tag)
    (notWhite : value.all Text.isWhite = false) (unknown : segmentOfTag? tag = none) :
    ∃ failure, splitSegment (.ofList (value ++ ':' :: tag)) = .error failure := by
  rw [splitSegment, String.toList_ofList, splitLastColon?_append noColon]
  simp only [notWhite, unknown]
  exact ⟨_, rfl⟩

theorem splitSegment_of_not_inner (outer : ¬HasInnerColon text) :
    splitSegment (.ofList text) = .ok (.ofList text, none) := by
  rw [splitSegment, String.toList_ofList]
  by_cases colon : ':' ∈ text
  · obtain ⟨value, tag, rfl, noColon⟩ := exists_last_colon colon
    have white : value.all Text.isWhite = true := by
      by_contra notWhite
      exact outer ⟨value, tag, rfl, noColon, Bool.eq_false_of_not_eq_true notWhite⟩
    rw [splitLastColon?_append noColon]
    simp only [white, if_true]
  · rw [splitLastColon?_of_not_mem colon]

/-- How values are read in a session. -/
def valueReading (session : Session) : Reading :=
  session.run.reading session.table.location false

/-- The text is an expression, which is an address in the session. -/
def HasValue (session : Session) (text : List Char) (address : Address) : Prop :=
  ∃ expression,
    Expression.compile (valueReading session) false (.ofList text) = .ok expression ∧
      (expression.evaluate .strict session.table).1 = .ok (.resolved address)

/-- `NUL` is read in the text. -/
def HasNul (session : Session) (text : List Char) : Prop :=
  ∃ parts,
    readParts (valueReading session) false (Text.trim Text.isBlank text) = .ok parts ∧
      .operator (.unary .nul) ∈ parts

theorem exists_parse_eq (coherent : session.run.Coherent) (source : String) :
    ∃ run,
      session.run.parse session.table.location source false false =
        (Expression.compile (valueReading session) false source, run) :=
  ⟨_, Prod.ext coherent.parse_fst rfl⟩

theorem readAddress_of_splitSegment {source : String} {segment? : Option Segment}
    (split : splitSegment source = .ok (.ofList text, segment?))
    (coherent : session.run.Coherent) (hasValue : HasValue session text address) :
    (readAddress colored session source).1 =
      .ok { address with segment := segment?.getD address.segment } := by
  obtain ⟨expression, compiled, evaluated⟩ := hasValue
  obtain ⟨run, read⟩ := exists_parse_eq coherent (.ofList text)
  simp only [readAddress, split, read, compiled, evaluated]

theorem readAddress_of_compile_error {source : String} {segment? : Option Segment}
    {error : ExpressionError} (split : splitSegment source = .ok (.ofList text, segment?))
    (coherent : session.run.Coherent)
    (faulty : Expression.compile (valueReading session) false (.ofList text) = .error error) :
    (readAddress colored session source).1 =
      .error (.ofError colored (.ofList text) error) := by
  obtain ⟨run, read⟩ := exists_parse_eq coherent (.ofList text)
  simp only [readAddress, split, read, faulty]

/-- At an inner colon the text is split, and what stands before the colon is no expression
unless there is `NUL`. -/
theorem exists_failure_of_inner (coherent : session.run.Coherent)
    (hasValue : HasValue session text address) (noNul : ¬HasNul session text)
    (inner : HasInnerColon text) :
    ∃ failure, (readAddress colored session (.ofList text)).1 = .error failure := by
  obtain ⟨value, tag, rfl, noColon, notWhite⟩ := inner
  cases known : segmentOfTag? tag with
  | none =>
      obtain ⟨failure, split⟩ := splitSegment_append_of_unknown noColon notWhite known
      exact ⟨failure, by rw [readAddress, split]⟩
  | some segment =>
      have split := splitSegment_append noColon notWhite known
      cases compiled : Expression.compile (valueReading session) false (.ofList value) with
      | error error => exact ⟨_, readAddress_of_compile_error split coherent compiled⟩
      | ok expression =>
          obtain ⟨whole, together, -⟩ := hasValue
          have blank := Expression.forall_blank_of_compile_colon compiled together
            fun parts read nul => noNul ⟨parts, read, nul⟩
          have white : value.all Text.isWhite = true :=
            List.all_eq_true.2 fun character member =>
              Text.isWhite_of_isBlank (blank character member)
          rw [white] at notWhite
          contradiction

/-- A value is the address of its expression, in the segment after it if there is one.  It
is so for an expression without an inner colon.  At an inner colon an expression without
`NUL` is refused. -/
theorem readAddress_of_hasValue (coherent : session.run.Coherent)
    (notBlank : ∃ character ∈ text, Text.isBlank character = false)
    (hasValue : HasValue session text address) (colored : Bool) :
    (∀ tag segment, SegmentTag tag segment →
      (readAddress colored session (.ofList (text ++ ':' :: tag))).1 =
        .ok { address with segment }) ∧
    (¬HasInnerColon text → (readAddress colored session (.ofList text)).1 = .ok address) ∧
    (HasInnerColon text → ¬HasNul session text →
      ∃ failure, (readAddress colored session (.ofList text)).1 = .error failure) := by
  obtain ⟨expression, compiled, -⟩ := id hasValue
  have notWhite := Expression.all_isWhite_of_compile compiled notBlank
  refine ⟨?_, ?_, ?_⟩
  · intro tag segment spells
    have split := splitSegment_append spells.not_mem_colon notWhite spells.segmentOfTag?_eq
    exact readAddress_of_splitSegment split coherent hasValue
  · intro outer
    exact readAddress_of_splitSegment (splitSegment_of_not_inner outer) coherent hasValue
  · intro inner noNul
    exact exists_failure_of_inner coherent hasValue noNul inner

/-- A value that starts with a root symbol, in a common block. -/
theorem readAddress_of_leading_root :
    let session : Session := { table := SymbolTable.define {} "FOO" ⟨.code, 5⟩ }
    let text := " :foo + 1".toList
    let tag := "Common=".toList ++ "Buf".toList
    session.run.Coherent ∧ (∃ character ∈ text, Text.isBlank character = false) ∧
      HasValue session text ⟨.code, 6⟩ ∧ SegmentTag tag (.common "BUF") ∧
      ¬HasInnerColon text ∧
      (readAddress false session (.ofList (text ++ ':' :: tag))).1 =
        .ok ⟨.common "BUF", 6⟩ ∧
      (readAddress false session (.ofList text)).1 = .ok ⟨.code, 6⟩ := by
  intro session text tag
  have coherent : session.run.Coherent := AssemblyRun.coherent_of_empty {}
  have notBlank : ∃ character ∈ text, Text.isBlank character = false :=
    ⟨':', by decide, by decide⟩
  have hasValue : HasValue session text ⟨.code, 6⟩ :=
    ⟨{ source := ":foo + 1"
       parts := [.symbol { name := "foo", external := false, root := true },
          .address (.absolute 1), .operator (.binary .plus)]
       isByte := false
       isPostfix := true },
      by decide +kernel, by decide +kernel⟩
  have block : Text.upper (.ofList "Buf".toList) = "BUF" := by decide +kernel
  have spells : SegmentTag tag (.common "BUF") :=
    block ▸ .common (by decide) (by decide) (by decide) (by rintro last ⟨⟩; decide)
  have outer : ¬HasInnerColon text := by
    rintro ⟨value, tag, split, noColon, notWhite⟩
    have last := splitLastColon?_append noColon value
    rw [← split, show splitLastColon? text = some ([' '], "foo + 1".toList) by decide] at last
    cases last
    contradiction
  have value := readAddress_of_hasValue coherent notBlank hasValue false
  exact ⟨coherent, notBlank, hasValue, spells, outer, value.1 tag _ spells, value.2.1 outer⟩

/-- An inner colon before a symbol: the expression has a value, and the option does not. -/
theorem readAddress_of_inner_root :
    let session : Session := { table := SymbolTable.define {} "FOO" ⟨.absolute, 5⟩ }
    HasValue session "1+:FOO".toList ⟨.absolute, 6⟩ ∧
      (readAddress false session "1+:FOO").1 =
        .error (.message
          "unknown segment 'FOO': expected code, data, absolute or common=BLOCK") := by
  constructor
  · exact ⟨{ source := "1+:FOO"
             parts := [.address (.absolute 1),
               .symbol { name := "FOO", external := false, root := true },
               .operator (.binary .plus)]
             isByte := false
             isPostfix := true },
            by decide +kernel, by decide +kernel⟩
  · decide +kernel

end Command

end RelocExpr
