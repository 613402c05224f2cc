import Mathlib.Data.List.TakeWhile
import RelocExpr.Proofs.Digits
import RelocExpr.Proofs.ErrorText
import RelocExpr.Proofs.StringNotation

/-!
# Where lexemes end

A scanner looks at most two characters past the ones that it takes.  So it takes the same
lexeme when what follows is replaced by a text that looks the same so far ahead, or when
both texts begin with a character that no lexeme goes on with: a blank or a colon.  Only
`NUL` depends on all that follows it.  Every other lexeme ends with a character that is no
blank.
-/

namespace RelocExpr.Lexeme

variable {reading : Reading} {afterOperand : Bool} {parts : List Part}
variable {first next : Char} {more rest other tail : List Char}

/-! ## Looking ahead -/

/-- No lexeme goes on with the first character of the text. -/
def Stops (text : List Char) : Prop :=
  ∀ next ∈ text.head?, isWordCharacter next = false ∧ next ∉ ['#', '\'', '"']

theorem stops_nil : Stops [] := by
  intro next isNext
  cases isNext

theorem stops_blank (blank : Text.isBlank next = true) (more : List Char) :
    Stops (next :: more) := by
  intro head isHead
  cases isHead
  rw [Text.isBlank, Bool.or_eq_true, decide_eq_true_eq, decide_eq_true_eq] at blank
  rcases blank with rfl | rfl
  · decide
  · decide

theorem Stops.append_of_blank {blanks text : List Char}
    (blank : ∀ character ∈ blanks, Text.isBlank character = true) (stops : Stops text) :
    Stops (blanks ++ text) := by
  cases blanks with
  | nil => exact stops
  | cons next more => exact stops_blank (blank next List.mem_cons_self) (more ++ text)

theorem stops_colon (more : List Char) : Stops (':' :: more) := by
  intro head isHead
  cases isHead
  decide

/-- The texts can not be told apart by a scanner that has come to them. -/
structure SameAhead (rest other : List Char) : Prop where
  word : rest.head?.any isWordCharacter = other.head?.any isWordCharacter
  alphanum : rest.head?.any Char.isAlphanum = other.head?.any Char.isAlphanum
  quote : ∀ quote, quote = '\'' ∨ quote = '"' →
    (rest.head? = some quote ↔ other.head? = some quote)
  mark : rest.take 2 = ['#', '#'] ↔ other.take 2 = ['#', '#']

theorem Stops.any_isWordCharacter (stops : Stops rest) :
    rest.head?.any isWordCharacter = false := by
  cases rest with
  | nil => rfl
  | cons next more => exact (stops next rfl).1

/-- Letters and digits are characters of words. -/
theorem isAlphanum_of_not_isWordCharacter (noWord : isWordCharacter next = false) :
    next.isAlphanum = false := by
  simp only [isWordCharacter, isWordStart, Bool.or_eq_false_iff] at noWord
  rw [Char.isAlphanum, noWord.1.1, noWord.2, Bool.false_or]

theorem Stops.any_isAlphanum (stops : Stops rest) :
    rest.head?.any Char.isAlphanum = false := by
  cases rest with
  | nil => rfl
  | cons next more => exact isAlphanum_of_not_isWordCharacter (stops next rfl).1

theorem Stops.head?_ne (stops : Stops rest) (listed : next ∈ ['#', '\'', '"']) :
    rest.head? ≠ some next := by
  intro isNext
  exact (stops next isNext).2 listed

namespace SameAhead

theorem of_stops (stops : Stops rest) (otherStops : Stops other) : SameAhead rest other where
  word := stops.any_isWordCharacter.trans otherStops.any_isWordCharacter.symm
  alphanum := stops.any_isAlphanum.trans otherStops.any_isAlphanum.symm
  quote := by
    intro quote isQuote
    have listed : quote ∈ ['#', '\'', '"'] := by
      rcases isQuote with rfl | rfl
      · decide
      · decide
    exact iff_of_false (stops.head?_ne listed) (otherStops.head?_ne listed)
  mark := by
    have unmarked {text : List Char} (stops : Stops text) : text.take 2 ≠ ['#', '#'] := by
      intro marks
      have head := List.head?_take (l := text) (i := 2)
      rw [marks] at head
      exact stops.head?_ne (by decide) head.symm
    exact iff_of_false (unmarked stops) (unmarked otherStops)

/-- It is enough that the texts differ from a place on where no lexeme goes on. -/
theorem append (front : List Char) (stops : Stops rest) (otherStops : Stops other) :
    SameAhead (front ++ rest) (front ++ other) := by
  match front with
  | [] => exact of_stops stops otherStops
  | first :: second :: front => exact ⟨rfl, rfl, fun _ _ => .rfl, .rfl⟩
  | [first] =>
      refine ⟨rfl, rfl, fun _ _ => .rfl, ?_⟩
      have unmarked {text : List Char} (stops : Stops text) :
          ([first] ++ text).take 2 ≠ ['#', '#'] := by
        intro marks
        cases text with
        | nil => cases marks
        | cons next more =>
            obtain ⟨-, rest⟩ := List.cons.inj marks
            exact stops.head?_ne (by decide) (congrArg some (List.cons.inj rest).1)
      exact iff_of_false (unmarked stops) (unmarked otherStops)

end SameAhead

/-! ## Runs of one class -/

section

variable {member : Char → Bool}

/-- A run of a class ends where what follows does not belong to it. -/
theorem takeWhile_append_eq_left_iff :
    (more ++ rest).takeWhile member = more ↔
      (∀ character ∈ more, member character = true) ∧ rest.head?.any member = false := by
  induction more with
  | nil =>
      cases rest with
      | nil => simp
      | cons next rest => cases belongs : member next <;> simp [belongs]
  | cons character more ih =>
      cases belongs : member character with
      | false => simp [belongs]
      | true => simp [belongs, ih]

theorem dropWhile_of_takeWhile_append (run : (more ++ rest).takeWhile member = more) :
    (more ++ rest).dropWhile member = rest := by
  have whole := List.takeWhile_append_dropWhile (p := member) (l := more ++ rest)
  rw [run] at whole
  exact List.append_cancel_left whole

/-- The same run is taken from a text that goes on in another way. -/
theorem takeWhile_append_congr (run : (more ++ rest).takeWhile member = more)
    (same : rest.head?.any member = other.head?.any member) :
    (more ++ other).takeWhile member = more := by
  obtain ⟨inside, ends⟩ := takeWhile_append_eq_left_iff.1 run
  exact takeWhile_append_eq_left_iff.2 ⟨inside, same ▸ ends⟩

end

/-! ## Inner characters -/

/-- A character that may follow the first one of a lexeme that is no string literal. -/
def IsInner (character : Char) : Prop :=
  isWordCharacter character = true ∨ character ∈ ['#', '\'']

theorem isInner_of_isAlphanum (alphanum : next.isAlphanum = true) : IsInner next := by
  left
  by_contra noWord
  rw [isAlphanum_of_not_isWordCharacter (Bool.not_eq_true _ ▸ noWord)] at alphanum
  contradiction

theorem isInner_of_mem_takeWhile_isAlphanum
    (member : next ∈ rest.takeWhile Char.isAlphanum) : IsInner next :=
  isInner_of_isAlphanum (List.mem_takeWhile_imp member)

/-! ## Numbers -/

theorem scanNumber_of_sameAhead {radix : Nat}
    (scanned : scanNumber radix first (more ++ rest) =
      .ok { parts, taken := first :: more, rest })
    (same : SameAhead rest other) :
    scanNumber radix first (more ++ other) =
      .ok { parts, taken := first :: more, rest := other } := by
  obtain ⟨value, spelled, equal⟩ := scanNumber_eq_ok_iff.1 scanned
  obtain ⟨rfl, taken, -⟩ := Lexeme.mk.inj equal
  have run := (List.cons.inj taken).2.symm
  have otherRun := takeWhile_append_congr run same.alphanum
  rw [run] at spelled
  refine scanNumber_eq_ok_iff.2 ⟨value, ?_, ?_⟩
  · rw [otherRun]
    exact spelled
  · rw [otherRun, dropWhile_of_takeWhile_append otherRun]

theorem scanMarked_of_sameAhead {radix : Nat}
    (scanned : scanMarked radix first (more ++ rest) =
      .ok { parts, taken := first :: more, rest })
    (same : SameAhead rest other) :
    scanMarked radix first (more ++ other) =
      .ok { parts, taken := first :: more, rest := other } := by
  obtain ⟨value, spelled, equal⟩ := scanMarked_eq_ok_iff.1 scanned
  obtain ⟨rfl, taken, -⟩ := Lexeme.mk.inj equal
  have run := (List.cons.inj taken).2.symm
  have otherRun := takeWhile_append_congr run same.alphanum
  rw [run] at spelled
  refine scanMarked_eq_ok_iff.2 ⟨value, ?_, ?_⟩
  · rw [otherRun]
    exact spelled
  · rw [otherRun, dropWhile_of_takeWhile_append otherRun]

/-- Nothing behind the closing quote matters. -/
theorem exists_scanHexString_append {quote : Char} {text : List Char}
    (scanned : scanHexString first quote text = .ok { parts, taken := first :: more, rest })
    (other : List Char) :
    ∃ body, more = quote :: body ∧
      scanHexString first quote (body ++ other) =
        .ok { parts, taken := first :: more, rest := other } := by
  obtain ⟨digits, after, value, rfl, noQuote, spelled, equal⟩ :=
    scanHexString_eq_ok_iff.1 scanned
  obtain ⟨rfl, taken, -⟩ := Lexeme.mk.inj equal
  obtain rfl := (List.cons.inj taken).2
  refine ⟨digits ++ [quote], rfl, scanHexString_eq_ok_iff.2 ?_⟩
  exact ⟨digits, other, value, by simp, noQuote, spelled, rfl⟩

theorem isInner_of_hexString
    (scanned : scanHexString first '\'' rest =
      .ok { parts, taken := first :: more, rest := other }) :
    ∀ character ∈ more, IsInner character := by
  obtain ⟨digits, after, value, -, -, spelled, equal⟩ := scanHexString_eq_ok_iff.1 scanned
  obtain ⟨-, taken, -⟩ := Lexeme.mk.inj equal
  obtain rfl := (List.cons.inj taken).2
  have quote : IsInner '\'' := .inr (by decide)
  have inner : ∀ digit ∈ digits, IsInner digit := by
    split at spelled
    · next empty => simp [List.isEmpty_iff.1 empty]
    · obtain ⟨number, spells, -⟩ :=
        (Text.readDigits?_eq_some_iff (by decide) (by decide)).1 spelled
      intro digit member
      have isDigit := spells.isSome_digitValue? (by decide) (by decide) digit member
      exact isInner_of_isAlphanum (Text.isAlphanum_of_digitValue? isDigit)
  simpa [or_imp, forall_and, quote] using inner

/-! ## String literals -/

namespace Quoting

variable {quoting : Quoting} {bytes : List UInt8} {body : List Char} {offset : Nat}
variable (isQuote : quoting.quote = '\'' ∨ quoting.quote = '"')

/-- Hexadecimal digits end at the closing quote. -/
theorem takeWhile_take_append_quote (noDigit : Text.digitValue? 16 quoting.quote = none)
    (body rest : List Char) :
    ((body ++ quoting.quote :: rest).take 2).takeWhile
        (fun digit => (Text.digitValue? 16 digit).isSome) =
      (body.take 2).takeWhile fun digit => (Text.digitValue? 16 digit).isSome := by
  match body with
  | [] => simp [noDigit]
  | [first] => cases found : Text.digitValue? 16 first <;> simp [found, noDigit]
  | first :: second :: body => rfl

include isQuote

/-- A piece of a literal does not depend on what follows the closing quote. -/
theorem piece_append_quote (first : Char) (body rest other : List Char) :
    quoting.piece first (body ++ quoting.quote :: rest) =
      quoting.piece first (body ++ quoting.quote :: other) := by
  have sameEscape : escapePiece (body ++ quoting.quote :: rest) =
      escapePiece (body ++ quoting.quote :: other) := by
    cases body with
    | nil =>
        have known := lookup_escapeCodes_special (isQuote.imp_right Or.inl)
        simp only [List.nil_append, escapePiece, known]
    | cons code body =>
        have noDigit : Text.digitValue? 16 quoting.quote = none := by
          rcases isQuote with isQuote | isQuote
          · rw [isQuote]
            decide
          · rw [isQuote]
            decide
        simp only [List.cons_append, escapePiece, takeWhile_take_append_quote noDigit]
  have sameHead : (body ++ quoting.quote :: rest).head? =
      (body ++ quoting.quote :: other).head? := by
    cases body <;> rfl
  rw [piece, piece, sameEscape, sameHead]

/-- What follows a literal matters only if a second quote would go on with it. -/
theorem scan_of_sameAhead
    (scanned : quoting.scan offset (body ++ rest) = .ok { bytes, taken := body, rest })
    (same : SameAhead rest other) :
    quoting.scan offset (body ++ other) = .ok { bytes, taken := body, rest := other } := by
  generalize split : body ++ rest = text at scanned
  fun_induction Quoting.scan quoting offset text generalizing body bytes with
  | case1 => contradiction
  | case2 offset first tail closing =>
      obtain ⟨rfl, rfl, rfl⟩ := QuotedText.mk.inj (Except.ok.inj scanned)
      obtain ⟨isClosing, last⟩ := eq_quote_of_piece closing
      apply scan_of_closing
      rw [isClosing]
      exact piece_closing (last.imp_right fun single => mt (same.quote _ isQuote).2 single)
  | case3 => contradiction
  | case4 offset first tail content more found taken =>
      rename_i ih
      obtain ⟨⟨laterBytes, laterTaken, laterRest⟩, scannedLater, equal⟩ :=
        Except.map_eq_ok_iff.1 scanned
      obtain ⟨rfl, rfl, rfl⟩ := QuotedText.mk.inj equal
      obtain ⟨body, rfl⟩ := exists_taken_eq_append_quote scannedLater
      obtain ⟨later, rfl⟩ := exists_append_of_piece found
      have takenMore : taken = first :: more := by simp [taken]
      have dropped : (more ++ later).drop more.length = later := by simp
      rw [takenMore, dropped] at ih scannedLater
      rw [takenMore] at split ⊢
      have splitLater : body ++ [quoting.quote] ++ laterRest = later := by simpa using split
      have foundOther : quoting.piece first (more ++ (body ++ [quoting.quote] ++ other)) =
          .content content more := by
        rw [← found, ← splitLater]
        have pieces := piece_append_quote isQuote first (more ++ body) other laterRest
        simpa using pieces
      rw [List.append_assoc, scan_of_content offset foundOther, ih splitLater scannedLater]
      rfl

end Quoting

theorem literalPart?_ne_operator {data : Bool} {literal : String} {operator : Operator} :
    literalPart? data bytes literal ≠ some (.operator operator) := by
  cases data with
  | true => simp [literalPart?]
  | false => cases shortString? bytes <;> simp [literalPart?, Part.number]

/-- A literal ends at its closing quote. -/
theorem scanString_of_sameAhead (isQuote : first = '\'' ∨ first = '"')
    (scanned : scanString reading first (more ++ rest) =
      .ok { parts, taken := first :: more, rest })
    (same : SameAhead rest other) :
    scanString reading first (more ++ other) =
      .ok { parts, taken := first :: more, rest := other } := by
  obtain ⟨⟨bytes, body, left⟩, part, found, known, equal⟩ := scanString_eq_ok_iff.1 scanned
  obtain ⟨rfl, taken, rfl⟩ := Lexeme.mk.inj equal
  obtain rfl := (List.cons.inj taken).2
  have foundOther := Quoting.scan_of_sameAhead isQuote found same
  exact scanString_eq_ok_iff.2 ⟨_, part, foundOther, known, rfl⟩

/-! ## Words -/

/-- Only `NUL` depends on what follows it. -/
theorem unmarkedParts_of_noNul {name : String} {after : List Char}
    (noNul : .operator (.unary .nul) ∉ (unmarkedParts reading name after).1)
    (other : List Char) :
    (unmarkedParts reading name after).2 = false ∧
      unmarkedParts reading name other = unmarkedParts reading name after := by
  unfold unmarkedParts at noNul ⊢
  split
  · exact ⟨rfl, rfl⟩
  · next notDollar =>
      rw [if_neg notDollar] at noNul
      split at noNul
      · simp at noNul
      · exact ⟨rfl, rfl⟩
      · exact ⟨rfl, rfl⟩

variable {root : Bool}

/-- The characters of a word that are no mark. -/
def markOf (root : Bool) : List Char := if root then [':'] else []

/-- A word that is not marked as a symbol of another module. -/
def unmarkedWord (reading : Reading) (root : Bool) (name after : List Char) : List Part :=
  if root then [.symbol { name := .ofList name, external := false, root := true }]
  else (unmarkedParts reading (.ofList name) after).1

theorem word_of_mark (inside : ∀ character ∈ more, isWordCharacter character = true)
    (rest : List Char) :
    word reading root first (more ++ '#' :: '#' :: rest) =
      { parts := [.symbol { name := .ofList (first :: more), external := true, root }]
        taken := markOf root ++ first :: (more ++ ['#', '#'])
        rest } := by
  have run := takeWhile_append_eq_left_iff.2
    ⟨inside, show ('#' :: '#' :: rest).head?.any isWordCharacter = false from rfl⟩
  simp [word, markOf, run, dropWhile_of_takeWhile_append run]

section

variable (run : (more ++ rest).takeWhile isWordCharacter = more)
variable (unmarked : rest.take 2 ≠ ['#', '#'])

include run unmarked

theorem parts_word_of_noMark :
    (word reading root first (more ++ rest)).parts =
      unmarkedWord reading root (first :: more) rest := by
  rw [word]
  dsimp only
  rw [run, dropWhile_of_takeWhile_append run, if_neg unmarked]
  cases root with
  | true => rfl
  | false =>
      rw [if_neg Bool.false_ne_true]
      split
      · rfl
      · rfl

theorem word_of_noMark
    (noNul : .operator (.unary .nul) ∉ unmarkedWord reading root (first :: more) rest) :
    word reading root first (more ++ rest) =
      { parts := unmarkedWord reading root (first :: more) rest
        taken := markOf root ++ first :: more
        rest } := by
  rw [word]
  dsimp only
  rw [run, dropWhile_of_takeWhile_append run, if_neg unmarked]
  cases root with
  | true => rfl
  | false =>
      obtain ⟨notNul, -⟩ := unmarkedParts_of_noNul noNul rest
      rw [notNul]
      rfl

end

/-- A word other than `NUL` ends before what no word goes on with, or with its mark. -/
theorem word_cases {text : List Char}
    (isWord : word reading root first text = { parts, taken := markOf root ++ first :: more, rest })
    (noNul : .operator (.unary .nul) ∉ parts) :
    (∃ name, more = name ++ ['#', '#'] ∧
        (∀ character ∈ name, isWordCharacter character = true) ∧
        parts = [.symbol { name := .ofList (first :: name), external := true, root }]) ∨
      (text = more ++ rest ∧ text.takeWhile isWordCharacter = more ∧ rest.take 2 ≠ ['#', '#'] ∧
        parts = unmarkedWord reading root (first :: more) rest) := by
  have whole := List.takeWhile_append_dropWhile (p := isWordCharacter) (l := text)
  have inside := List.all_takeWhile (p := isWordCharacter) (l := text)
  generalize run : text.takeWhile isWordCharacter = name at whole inside
  generalize text.dropWhile isWordCharacter = after at whole
  rw [List.all_eq_true] at inside
  subst whole
  by_cases marked : after.take 2 = ['#', '#']
  · left
    obtain ⟨later, rfl⟩ : ∃ later, after = '#' :: '#' :: later :=
      ⟨after.drop 2, by rw [← List.take_append_drop 2 after, marked]; simp⟩
    rw [word_of_mark inside] at isWord
    obtain ⟨isParts, taken, -⟩ := Lexeme.mk.inj isWord
    exact ⟨name, (List.cons.inj (List.append_cancel_left taken)).2.symm, inside, isParts.symm⟩
  · right
    have isParts : (word reading root first (name ++ after)).parts = _ :=
      parts_word_of_noMark run marked
    rw [isWord] at isParts
    rw [word_of_noMark run marked (isParts ▸ noNul)] at isWord
    obtain ⟨-, taken, rfl⟩ := Lexeme.mk.inj isWord
    obtain rfl := (List.cons.inj (List.append_cancel_left taken)).2
    exact ⟨rfl, rfl, marked, isParts⟩

theorem word_of_sameAhead
    (isWord : word reading root first (more ++ rest) =
      { parts, taken := markOf root ++ first :: more, rest })
    (noNul : .operator (.unary .nul) ∉ parts) (same : SameAhead rest other) :
    word reading root first (more ++ other) =
      { parts, taken := markOf root ++ first :: more, rest := other } := by
  rcases word_cases isWord noNul with ⟨name, rfl, inside, rfl⟩ | ⟨-, run, unmarked, rfl⟩
  · rw [List.append_assoc]
    exact word_of_mark inside other
  · have otherRun := takeWhile_append_congr run same.word
    have sameParts : unmarkedWord reading root (first :: more) other =
        unmarkedWord reading root (first :: more) rest := by
      cases root with
      | true => rfl
      | false => exact congrArg Prod.fst (unmarkedParts_of_noNul noNul other).2
    rw [← sameParts] at noNul ⊢
    exact word_of_noMark otherRun (mt same.mark.2 unmarked) noNul

theorem isInner_of_word {text : List Char}
    (isWord : word reading root first text = { parts, taken := markOf root ++ first :: more, rest })
    (noNul : .operator (.unary .nul) ∉ parts) : ∀ character ∈ more, IsInner character := by
  rcases word_cases isWord noNul with ⟨name, rfl, inside, -⟩ | ⟨-, run, -, -⟩
  · intro character member
    rcases List.mem_append.1 member with inName | isMark
    · exact .inl (inside character inName)
    · exact .inr (by simp_all)
  · intro character member
    rw [← run] at member
    exact .inl (List.mem_takeWhile_imp member)

/-- After a colon a word takes its first character too. -/
theorem exists_taken_word (reading : Reading) (root : Bool) (first : Char) (rest : List Char) :
    ∃ more, (word reading root first rest).taken = markOf root ++ first :: more := by
  unfold word
  dsimp only
  split
  · exact ⟨_, List.append_assoc _ _ _⟩
  · cases root with
    | true => exact ⟨_, rfl⟩
    | false =>
        rw [if_neg Bool.false_ne_true]
        split
        · exact ⟨_, rfl⟩
        · exact ⟨_, rfl⟩

/-- After a colon a word is a symbol whatever it spells. -/
theorem exists_symbol_of_word_root (reading : Reading) (first : Char) (rest : List Char) :
    ∃ ref, (word reading true first rest).parts = [.symbol ref] := by
  unfold word
  dsimp only
  split
  · exact ⟨_, rfl⟩
  · exact ⟨_, rfl⟩

/-- The word of a lexeme begins after the colon, or with the first character. -/
theorem scanWord_eq_ok_cases {text : List Char}
    (scanned : scanWord reading first text = .ok { parts, taken := first :: more, rest }) :
    (∃ start tail later, first = ':' ∧ isWordStart start = true ∧ text = start :: tail ∧
        more = start :: later ∧
        word reading true start tail = { parts, taken := markOf true ++ start :: later, rest }) ∨
      first ≠ ':' ∧
        word reading false first text = { parts, taken := markOf false ++ first :: more, rest } := by
  unfold scanWord at scanned
  split at scanned
  · next colon =>
      split at scanned
      · next start tail =>
          split at scanned
          · next isStart =>
              have isWord := Except.ok.inj scanned
              obtain ⟨later, taken⟩ := exists_taken_word reading true start tail
              rw [isWord] at taken
              obtain ⟨rfl, rfl⟩ := List.cons.inj taken
              exact .inl ⟨start, tail, later, rfl, isStart, rfl, rfl, isWord⟩
          · contradiction
      · contradiction
  · next noColon => exact .inr ⟨noColon, Except.ok.inj scanned⟩

theorem scanWord_of_sameAhead
    (scanned : scanWord reading first (more ++ rest) =
      .ok { parts, taken := first :: more, rest })
    (noNul : .operator (.unary .nul) ∉ parts) (same : SameAhead rest other) :
    scanWord reading first (more ++ other) =
      .ok { parts, taken := first :: more, rest := other } := by
  rcases scanWord_eq_ok_cases scanned with
    ⟨start, tail, later, rfl, isStart, split, rfl, isWord⟩ | ⟨noColon, isWord⟩
  · obtain rfl := (List.cons.inj split).2
    rw [scanWord.eq_def, if_pos rfl]
    exact (if_pos isStart).trans (congrArg Except.ok (word_of_sameAhead isWord noNul same))
  · rw [scanWord.eq_def, if_neg noColon]
    exact congrArg Except.ok (word_of_sameAhead isWord noNul same)

theorem isInner_of_scanWord {text : List Char}
    (scanned : scanWord reading first text = .ok { parts, taken := first :: more, rest })
    (noNul : .operator (.unary .nul) ∉ parts) : ∀ character ∈ more, IsInner character := by
  rcases scanWord_eq_ok_cases scanned with
    ⟨start, tail, later, -, isStart, -, rfl, isWord⟩ | ⟨-, isWord⟩
  · intro character member
    rcases List.mem_cons.1 member with rfl | member
    · exact .inl (by rw [isWordCharacter, isStart, Bool.true_or])
    · exact isInner_of_word isWord noNul character member
  · exact isInner_of_word isWord noNul

/-! ## All lexemes -/

/-- A lexeme other than `NUL` stays the same lexeme in front of a text that looks the
same. -/
theorem scan_of_sameAhead
    (scanned : scan reading afterOperand first (more ++ rest) =
      .ok { parts, taken := first :: more, rest })
    (noNul : .operator (.unary .nul) ∉ parts) (same : SameAhead rest other) :
    scan reading afterOperand first (more ++ other) =
      .ok { parts, taken := first :: more, rest := other } := by
  unfold scan at scanned ⊢
  split at scanned
  · next isDigit =>
      rw [if_pos isDigit]
      exact scanNumber_of_sameAhead scanned same
  next noDigit =>
  rw [if_neg noDigit]
  split at scanned
  · next isMark =>
      rw [if_pos isMark]
      exact scanMarked_of_sameAhead scanned same
  next noHexMark =>
  rw [if_neg noHexMark]
  split at scanned
  · next isMark =>
      rw [if_pos isMark]
      exact scanMarked_of_sameAhead scanned same
  next noBinaryMark =>
  rw [if_neg noBinaryMark]
  split at scanned
  · next isQuote =>
      rw [if_pos isQuote]
      exact scanString_of_sameAhead (by simpa using isQuote) scanned same
  next noQuote =>
  rw [if_neg noQuote]
  split at scanned
  · next hexString =>
      simp only [Bool.and_eq_true, decide_eq_true_eq] at hexString
      obtain ⟨body, rfl, scannedOther⟩ := exists_scanHexString_append scanned other
      rw [if_pos (by simp [hexString.1])]
      exact scannedOther
  next noHexString =>
  have noHexString : ¬ (first.toLower = 'x' && (more ++ other).head? = some '\'') = true := by
    cases more with
    | nil => simpa [same.quote] using noHexString
    | cons => exact noHexString
  rw [if_neg noHexString]
  split at scanned
  · next found =>
      obtain ⟨rfl, taken, -⟩ := Lexeme.mk.inj (Except.ok.inj scanned)
      obtain rfl := (List.cons.inj taken).2
      rfl
  next notSingle =>
  split at scanned
  · next startsWord =>
      rw [if_pos startsWord]
      exact scanWord_of_sameAhead scanned noNul same
  · contradiction

theorem isInner_of_number {text : List Char} {value : UInt16}
    (equal : ({ parts, taken := first :: more, rest } : Lexeme) =
      { parts := [.number value]
        taken := first :: text.takeWhile Char.isAlphanum
        rest := text.dropWhile Char.isAlphanum }) :
    .operator (.unary .nul) ∉ parts ∧ ∀ character ∈ more, IsInner character := by
  obtain ⟨rfl, taken, -⟩ := Lexeme.mk.inj equal
  obtain rfl := (List.cons.inj taken).2
  exact ⟨by simp [Part.number], fun _ => isInner_of_mem_takeWhile_isAlphanum⟩

/-- Every lexeme is a word, or a string literal, which ends with its quote, or all its
characters but the first one are inner ones.  Only a word can be `NUL`. -/
theorem scan_eq_ok_cases {text : List Char}
    (scanned : scan reading afterOperand first text =
      .ok { parts, taken := first :: more, rest }) :
    scanWord reading first text = .ok { parts, taken := first :: more, rest } ∨
      .operator (.unary .nul) ∉ parts ∧
        ((∀ character ∈ more, IsInner character) ∨
          (first = '\'' ∨ first = '"') ∧ ∃ body, more = body ++ [first]) := by
  unfold scan at scanned
  split at scanned
  · obtain ⟨value, -, equal⟩ := scanNumber_eq_ok_iff.1 scanned
    exact .inr ((isInner_of_number equal).imp_right .inl)
  split at scanned
  · obtain ⟨value, -, equal⟩ := scanMarked_eq_ok_iff.1 scanned
    exact .inr ((isInner_of_number equal).imp_right .inl)
  split at scanned
  · obtain ⟨value, -, equal⟩ := scanMarked_eq_ok_iff.1 scanned
    exact .inr ((isInner_of_number equal).imp_right .inl)
  split at scanned
  · next isQuote =>
      obtain ⟨quoted, part, found, known, equal⟩ := scanString_eq_ok_iff.1 scanned
      obtain ⟨rfl, taken, -⟩ := Lexeme.mk.inj equal
      obtain ⟨body, ends⟩ := Quoting.exists_taken_eq_append_quote found
      obtain rfl := (List.cons.inj taken).2
      refine .inr ⟨?_, .inr ⟨by simpa using isQuote, body, ends⟩⟩
      rw [List.mem_singleton]
      rintro rfl
      exact literalPart?_ne_operator known
  split at scanned
  · have inner := isInner_of_hexString scanned
    obtain ⟨_, _, _, -, -, -, equal⟩ := scanHexString_eq_ok_iff.1 scanned
    obtain ⟨rfl, -, -⟩ := Lexeme.mk.inj equal
    exact .inr ⟨by simp [Part.number], .inl inner⟩
  split at scanned
  · next found =>
      obtain ⟨rfl, taken, -⟩ := Lexeme.mk.inj (Except.ok.inj scanned)
      obtain rfl := (List.cons.inj taken).2
      refine .inr ⟨?_, .inl fun _ member => absurd member List.not_mem_nil⟩
      rw [List.mem_singleton]
      exact (punctuation?_eq_some found).1.symm
  split at scanned
  · exact .inl scanned
  · contradiction

theorem IsInner.isBlank_eq_false {character : Char} (inner : IsInner character) :
    Text.isBlank character = false := by
  by_contra blank
  rw [Bool.not_eq_false, Text.isBlank, Bool.or_eq_true, decide_eq_true_eq,
    decide_eq_true_eq] at blank
  revert inner
  rcases blank with rfl | rfl
  · unfold IsInner
    decide
  · unfold IsInner
    decide

/-- A lexeme other than `NUL` ends with a character that is no blank. -/
theorem isBlank_eq_false_of_mem_getLast? {text : List Char} {last : Char}
    (notBlank : Text.isBlank first = false)
    (scanned : scan reading afterOperand first text =
      .ok { parts, taken := first :: more, rest })
    (noNul : .operator (.unary .nul) ∉ parts) (isLast : (first :: more).getLast? = some last) :
    Text.isBlank last = false := by
  have ends (inner : ∀ character ∈ more, IsInner character) : Text.isBlank last = false := by
    rcases List.mem_cons.1 (List.mem_of_getLast? isLast) with rfl | member
    · exact notBlank
    · exact (inner last member).isBlank_eq_false
  rcases scan_eq_ok_cases scanned with isWord | ⟨-, inner | ⟨-, body, rfl⟩⟩
  · exact ends (isInner_of_scanWord isWord noNul)
  · exact ends inner
  · rw [← List.cons_append, List.getLast?_append] at isLast
    obtain rfl := Option.some.inj isLast
    exact notBlank

end RelocExpr.Lexeme
