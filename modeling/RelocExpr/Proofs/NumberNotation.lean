import Mathlib.Data.List.TakeWhile
import RelocExpr.Lexeme
import RelocExpr.Proofs.Digits

/-!
# How numbers are written

A number is written with the digits of the radix of the settings, or with those of another
base, which a letter behind them, a mark in front of them or quotes around them name.  All
these texts are read as the number modulo 2^16, and every other run of letters and digits
that begins with a digit is refused as a whole.

The letters `b` and `d` name a base only where they are no digits of the radix.  So a run
has its number in one notation at most, and its last letter decides in which.
-/

namespace RelocExpr

namespace Lexeme

open Text (Spells)

/-! ## Notations -/

/-- The letter at the end of a run means that the digits before it are those of the base. -/
inductive Suffix (radix : Nat) : (base : Nat) → Char → Prop
  | hexadecimal {mark : Char} : mark.toLower = 'h' → Suffix radix 16 mark
  | octal {mark : Char} : mark.toLower = 'o' ∨ mark.toLower = 'q' → Suffix radix 8 mark
  -- From radix 12 on `b` is a digit, and from radix 14 on `d` is.
  | binary {mark : Char} : radix ≤ 11 → mark.toLower = 'b' → Suffix radix 2 mark
  | decimal {mark : Char} : radix ≤ 13 → mark.toLower = 'd' → Suffix radix 10 mark

/-- The run is the number in the radix, or in the base that its last letter names. -/
inductive RunNotation (radix number : Nat) : List Char → Prop
  | plain {digits : List Char} :
      Spells radix number digits → RunNotation radix number digits
  | suffixed {base : Nat} {digits : List Char} {mark : Char} :
      Suffix radix base mark → Spells base number digits →
      RunNotation radix number (digits ++ [mark])

/-- The text is the number after a mark, or between quotes. -/
inductive MarkedNotation (number : Nat) : List Char → Prop
  | hexadecimal {digits : List Char} :
      Spells 16 number digits → MarkedNotation number ('#' :: digits)
  | binary {digits : List Char} :
      Spells 2 number digits → MarkedNotation number ('%' :: digits)
  | quoted {mark : Char} {digits : List Char} :
      mark.toLower = 'x' → Spells 16 number digits →
      MarkedNotation number (mark :: '\'' :: (digits ++ ['\'']))

/-- The text is the number in one of the notations.  A run of letters and digits is a number
only if a digit is first. -/
inductive NumberNotation (radix number : Nat) : List Char → Prop
  | run {first : Char} {more : List Char} :
      first.isDigit = true → RunNotation radix number (first :: more) →
      NumberNotation radix number (first :: more)
  | marked {text : List Char} : MarkedNotation number text → NumberNotation radix number text

/-! ## Letters in either case -/

section

variable {character lower : Char}

/-- A character with this lower case is the letter in one of its cases. -/
theorem eq_or_eq_toUpper_of_toLower (equal : character.toLower = lower) :
    character = lower ∨ character = lower.toUpper := by
  subst equal
  unfold Char.toLower
  split
  · right
    unfold Char.toUpper
    rw [dif_pos (by grind [UInt32.toNat_add, Char.toNat_val])]
    apply Char.ext
    change character.val = character.val + 32 + 4294967264
    rw [UInt32.add_assoc]
    simp
  · exact .inl rfl

/-- What both cases of a letter have in common. -/
theorem of_toLower (property : Char → Prop) (equal : character.toLower = lower)
    (both : property lower ∧ property lower.toUpper) : property character := by
  rcases eq_or_eq_toUpper_of_toLower equal with rfl | rfl
  · exact both.1
  · exact both.2

theorem isAlphanum_of_toLower (equal : character.toLower = lower)
    (both : lower.isAlphanum = true ∧ lower.toUpper.isAlphanum = true) :
    character.isAlphanum = true :=
  of_toLower (Char.isAlphanum · = true) equal both

theorem isDigitOf_eleven (equal : character.toLower = 'b') : Text.IsDigitOf 11 character :=
  of_toLower (Text.IsDigitOf 11) equal (by decide)

theorem isDigitOf_thirteen (equal : character.toLower = 'd') : Text.IsDigitOf 13 character :=
  of_toLower (Text.IsDigitOf 13) equal (by decide)

end

/-! ## Suffixes -/

namespace Suffix

variable {radix base : Nat} {mark : Char}

theorem isAlphanum (suffix : Suffix radix base mark) : mark.isAlphanum = true := by
  cases suffix with
  | hexadecimal lower => exact isAlphanum_of_toLower lower (by decide)
  | octal lower =>
      rcases lower with lower | lower
      · exact isAlphanum_of_toLower lower (by decide)
      · exact isAlphanum_of_toLower lower (by decide)
  | binary _ lower => exact isAlphanum_of_toLower lower (by decide)
  | decimal _ lower => exact isAlphanum_of_toLower lower (by decide)

theorem two_le_base (suffix : Suffix radix base mark) : 2 ≤ base := by
  cases suffix <;> decide

theorem base_le_sixteen (suffix : Suffix radix base mark) : base ≤ 16 := by
  cases suffix <;> decide

/-- A letter that names a base is no digit of the radix. -/
theorem digitValue?_eq_none (small : radix ≤ 16) (suffix : Suffix radix base mark) :
    Text.digitValue? radix mark = none := by
  rw [Option.eq_none_iff_forall_ne_some]
  intro value found
  obtain ⟨found, below⟩ := (Text.digitValue?_eq_some_iff_sixteen small).1 found
  have noDigit (missing : Text.digitValue? 16 mark = none) : False := by
    rw [missing] at found
    contradiction
  have largeDigit (other : Nat) (isOther : Text.digitValue? 16 mark = some other) :
      other < radix := by
    rw [isOther] at found
    exact Option.some.inj found ▸ below
  cases suffix with
  | hexadecimal lower =>
      exact noDigit (of_toLower (Text.digitValue? 16 · = none) lower (by decide))
  | octal lower =>
      rcases lower with lower | lower
      · exact noDigit (of_toLower (Text.digitValue? 16 · = none) lower (by decide))
      · exact noDigit (of_toLower (Text.digitValue? 16 · = none) lower (by decide))
  | binary atMost lower =>
      have less := largeDigit 11 (of_toLower (Text.digitValue? 16 · = some 11) lower (by decide))
      omega
  | decimal atMost lower =>
      have less := largeDigit 13 (of_toLower (Text.digitValue? 16 · = some 13) lower (by decide))
      omega

end Suffix

section

variable {radix base : Nat} {digits : List Char} {mark : Char}

theorem splitSuffix_of_suffix (small : radix ≤ 16) (suffix : Suffix radix base mark) :
    splitSuffix radix (digits ++ [mark]) = (digits, base) := by
  have noDigit := suffix.digitValue?_eq_none small
  unfold splitSuffix
  rw [List.getLast?_concat, List.dropLast_concat]
  cases suffix with
  | hexadecimal lower => simp only [lower]
  | octal lower => rcases lower with lower | lower <;> simp only [lower]
  | binary _ lower => simp [lower, noDigit]
  | decimal _ lower => simp [lower, noDigit]

/-- A last letter that names no base belongs to the digits. -/
theorem splitSuffix_of_not_suffix (small : radix ≤ 16)
    (noSuffix : ∀ base, ¬ Suffix radix base mark) :
    splitSuffix radix (digits ++ [mark]) = (digits ++ [mark], radix) := by
  unfold splitSuffix
  rw [List.getLast?_concat, List.dropLast_concat]
  dsimp only
  split
  · next lower => exact absurd (.hexadecimal lower) (noSuffix 16)
  · next lower => exact absurd (.octal (.inl lower)) (noSuffix 8)
  · next lower => exact absurd (.octal (.inr lower)) (noSuffix 8)
  · next lower =>
      have large : 11 < radix := by
        by_contra atMost
        exact noSuffix 2 (.binary (by omega) lower)
      rw [(Text.digitValue?_eq_some_iff small).2 ⟨large, isDigitOf_eleven lower⟩]
      rfl
  · next lower =>
      have large : 13 < radix := by
        by_contra atMost
        exact noSuffix 10 (.decimal (by omega) lower)
      rw [(Text.digitValue?_eq_some_iff small).2 ⟨large, isDigitOf_thirteen lower⟩]
      rfl
  · rfl

end

/-! ## The number of a run -/

theorem isAlphanum_of_spells {base number : Nat} {digits : List Char} (two_le : 2 ≤ base)
    (small : base ≤ 16) (spelled : Spells base number digits) :
    ∀ digit ∈ digits, digit.isAlphanum = true :=
  fun digit member =>
    Text.isAlphanum_of_digitValue? (spelled.isSome_digitValue? two_le small digit member)

section

variable {radix base number : Nat} {run digits : List Char} {mark : Char}

/-- Where the last letter names no base all characters are digits of the radix. -/
theorem runNotation_concat_iff_of_not_suffix (noSuffix : ∀ base, ¬ Suffix radix base mark) :
    RunNotation radix number (digits ++ [mark]) ↔ Spells radix number (digits ++ [mark]) := by
  refine ⟨?_, .plain⟩
  generalize whole : digits ++ [mark] = run
  intro written
  cases written with
  | plain spelled => exact spelled
  | suffixed suffix spelled =>
      obtain rfl := List.singleton_inj.1 (List.append_inj' whole rfl).2
      exact absurd suffix (noSuffix _)

variable (two_le : 2 ≤ radix) (small : radix ≤ 16)

include two_le small

theorem RunNotation.isAlphanum (written : RunNotation radix number run) :
    ∀ character ∈ run, character.isAlphanum = true := by
  cases written with
  | plain spelled => exact isAlphanum_of_spells two_le small spelled
  | suffixed suffix spelled =>
      have alphanum := isAlphanum_of_spells suffix.two_le_base suffix.base_le_sixteen spelled
      intro character member
      rcases List.mem_append.1 member with digit | last
      · exact alphanum character digit
      · exact List.mem_singleton.1 last ▸ suffix.isAlphanum

/-- A last letter that names a base has only one meaning. -/
theorem runNotation_concat_iff_of_suffix (suffix : Suffix radix base mark) :
    RunNotation radix number (digits ++ [mark]) ↔ Spells base number digits := by
  refine ⟨?_, .suffixed suffix⟩
  generalize whole : digits ++ [mark] = run
  intro written
  cases written with
  | plain spelled =>
      have isDigit := spelled.isSome_digitValue? two_le small mark (by simp [← whole])
      rw [suffix.digitValue?_eq_none small] at isDigit
      contradiction
  | @suffixed otherBase otherDigits otherMark otherSuffix spelled =>
      obtain ⟨rfl, sameMark⟩ := List.append_inj' whole rfl
      obtain rfl := List.singleton_inj.1 sameMark
      have split : splitSuffix radix (digits ++ [mark]) = (digits, base) :=
        splitSuffix_of_suffix small suffix
      rw [splitSuffix_of_suffix small otherSuffix] at split
      obtain rfl := (Prod.mk.inj split).2
      exact spelled

/-- What has a value is what is a number in some notation, and the value is the number. -/
theorem numberValue?_eq_some_iff (notEmpty : run ≠ []) {value : UInt16} :
    numberValue? radix run = some value ↔
      ∃ number, RunNotation radix number run ∧ value = .ofNat number := by
  obtain ⟨digits, mark, rfl⟩ : ∃ digits mark, run = digits ++ [mark] :=
    ⟨_, _, (List.dropLast_append_getLast notEmpty).symm⟩
  by_cases named : ∃ base, Suffix radix base mark
  · obtain ⟨base, suffix⟩ := named
    rw [numberValue?, splitSuffix_of_suffix small suffix]
    simp only [runNotation_concat_iff_of_suffix two_le small suffix]
    exact Text.readDigits?_eq_some_iff suffix.two_le_base suffix.base_le_sixteen
  · have noSuffix : ∀ base, ¬ Suffix radix base mark := not_exists.1 named
    rw [numberValue?, splitSuffix_of_not_suffix small noSuffix]
    simp only [runNotation_concat_iff_of_not_suffix noSuffix]
    exact Text.readDigits?_eq_some_iff two_le small

end

/-! ## Lexemes -/

section

variable {reading : Reading} {afterOperand : Bool} {first : Char} {more after : List Char}
variable {number : Nat}

/-- A run ends where no letter or digit follows. -/
theorem takeWhile_isAlphanum {run : List Char}
    (alphanum : ∀ character ∈ run, character.isAlphanum = true)
    (ends : ∀ next ∈ after.head?, next.isAlphanum = false) :
    (run ++ after).takeWhile Char.isAlphanum = run ∧
      (run ++ after).dropWhile Char.isAlphanum = after := by
  rw [List.takeWhile_append_of_pos alphanum, List.dropWhile_append_of_pos alphanum]
  cases after with
  | nil => simp
  | cons next rest =>
      have stops : ¬ next.isAlphanum = true := by simp [ends next rfl]
      rw [List.takeWhile_cons_of_neg stops, List.dropWhile_cons_of_neg stops]
      simp

theorem isBlank_of_isDigit (isDigit : first.isDigit = true) : Text.isBlank first = false := by
  by_contra blank
  rw [Bool.not_eq_false, Text.isBlank, Bool.or_eq_true, decide_eq_true_eq,
    decide_eq_true_eq] at blank
  rcases blank with rfl | rfl
  · contradiction
  · contradiction

theorem scan_of_isDigit (isDigit : first.isDigit = true) (rest : List Char) :
    scan reading afterOperand first rest =
      scanNumber reading.settings.radix.base first rest := by
  rw [scan, if_pos isDigit]

theorem scan_of_runNotation (isDigit : first.isDigit = true)
    (written : RunNotation reading.settings.radix.base number (first :: more))
    (ends : ∀ next ∈ after.head?, next.isAlphanum = false) :
    scan reading afterOperand first (more ++ after) =
      .ok { parts := [.number (.ofNat number)], taken := first :: more, rest := after } := by
  have two_le := reading.settings.radix.two_le
  have small := reading.settings.radix.le_sixteen
  have alphanum := written.isAlphanum two_le small
  obtain ⟨taken, left⟩ := takeWhile_isAlphanum
    (fun character member => alphanum character (List.mem_cons_of_mem first member)) ends
  have value := (numberValue?_eq_some_iff two_le small (List.cons_ne_nil first more)).2
    ⟨number, written, rfl⟩
  rw [← taken] at value
  rw [scan_of_isDigit isDigit, scanNumber_of_value value, taken, left]

theorem scan_of_not_runNotation (isDigit : first.isDigit = true)
    (alphanum : ∀ character ∈ more, character.isAlphanum = true)
    (noNumber : ∀ number, ¬ RunNotation reading.settings.radix.base number (first :: more))
    (ends : ∀ next ∈ after.head?, next.isAlphanum = false) :
    scan reading afterOperand first (more ++ after) =
      .error (.malformedNumber (.ofList (first :: more)) 1) := by
  have two_le := reading.settings.radix.two_le
  have small := reading.settings.radix.le_sixteen
  rw [scan_of_isDigit isDigit, scanNumber_eq_error_iff, (takeWhile_isAlphanum alphanum ends).1,
    Option.eq_none_iff_forall_ne_some]
  refine ⟨?_, rfl⟩
  intro value found
  obtain ⟨number, written, -⟩ :=
    (numberValue?_eq_some_iff two_le small (List.cons_ne_nil first more)).1 found
  exact noNumber number written

theorem scan_of_toLower (lower : first.toLower = 'x') (rest : List Char) :
    scan reading afterOperand first ('\'' :: rest) = scanHexString first '\'' rest := by
  rcases eq_or_eq_toUpper_of_toLower lower with rfl | rfl
  · rfl
  · rfl

theorem scanMarked_of_spells {base : Nat} (two_le : 2 ≤ base) (small : base ≤ 16)
    (spelled : Spells base number more)
    (ends : ∀ next ∈ after.head?, next.isAlphanum = false) :
    scanMarked base first (more ++ after) =
      .ok { parts := [.number (.ofNat number)], taken := first :: more, rest := after } := by
  obtain ⟨taken, left⟩ := takeWhile_isAlphanum (isAlphanum_of_spells two_le small spelled) ends
  have value := (Text.readDigits?_eq_some_iff two_le small).2 ⟨number, spelled, rfl⟩
  rw [← taken] at value
  rw [scanMarked_of_value value, taken, left]

theorem scan_of_markedNotation (written : MarkedNotation number (first :: more))
    (ends : ∀ next ∈ after.head?, next.isAlphanum = false) :
    scan reading afterOperand first (more ++ after) =
      .ok { parts := [.number (.ofNat number)], taken := first :: more, rest := after } := by
  cases written with
  | hexadecimal spelled => exact scanMarked_of_spells (by decide) (by decide) spelled ends
  | binary spelled => exact scanMarked_of_spells (by decide) (by decide) spelled ends
  | @quoted _ digits lower spelled =>
      have value := (Text.readDigits?_eq_some_iff (by decide) (by decide)).2
        ⟨number, spelled, rfl⟩
      have noQuote : '\'' ∉ digits := by
        intro member
        have alphanum := isAlphanum_of_spells (by decide) (by decide) spelled _ member
        contradiction
      rw [List.cons_append, List.append_assoc, List.singleton_append, scan_of_toLower lower,
        scanHexString_of_value noQuote value]
      rfl

/-- A number is a lexeme of its own, whatever its notation. -/
theorem exists_scan_of_numberNotation {text : List Char}
    (written : NumberNotation reading.settings.radix.base number text)
    (ends : ∀ next ∈ after.head?, next.isAlphanum = false) :
    ∃ first more, text = first :: more ∧ Text.isBlank first = false ∧
      scan reading afterOperand first (more ++ after) =
        .ok { parts := [.number (.ofNat number)], taken := first :: more, rest := after } := by
  cases written with
  | @run first more isDigit written =>
      refine ⟨first, more, rfl, isBlank_of_isDigit isDigit, ?_⟩
      exact scan_of_runNotation isDigit written ends
  | marked written =>
      cases text with
      | nil => contradiction
      | cons first more =>
          refine ⟨first, more, rfl, ?_, scan_of_markedNotation written ends⟩
          cases written with
          | hexadecimal => rfl
          | binary => rfl
          | quoted lower => exact of_toLower (Text.isBlank · = false) lower ⟨rfl, rfl⟩

end

end Lexeme

open Lexeme (NumberNotation)

/-- A text in one of the notations is read as its number modulo 2^16, before the parts of
what follows it and alone if only blanks follow.  Every other run of letters and digits that
begins with a digit is malformed as a whole.  A letter at the end of a run that is a digit of
the radix is the last digit of the run and names no base. -/
theorem readParts_number (reading : Reading) (afterOperand : Bool) {after : List Char}
    (ends : ∀ next ∈ after.head?, next.isAlphanum = false) :
    (∀ number text, NumberNotation reading.settings.radix.base number text →
      readParts reading afterOperand (text ++ after) =
        ((readParts reading true after).mapError (.shift (Text.byteWidth text))).map
          (.number (.ofNat (number % 2 ^ 16)) :: ·) ∧
      ((∀ next ∈ after, Text.isBlank next = true) →
        readParts reading afterOperand (text ++ after) =
          .ok [.number (.ofNat (number % 2 ^ 16))])) ∧
    (∀ first more, first.isDigit = true →
      (∀ character ∈ more, character.isAlphanum = true) →
      (∀ number, ¬ NumberNotation reading.settings.radix.base number (first :: more)) →
      readParts reading afterOperand (first :: more ++ after) =
        .error (.malformedNumber (.ofList (first :: more)) 1)) ∧
    (∀ number digits mark value, Text.Spells reading.settings.radix.base number digits →
      mark.toLower = 'b' ∧ value = 11 ∨ mark.toLower = 'd' ∧ value = 13 →
      value < reading.settings.radix.base →
      Text.Spells reading.settings.radix.base
        (number * reading.settings.radix.base + value) (digits ++ [mark]) ∧
      ∀ base, ¬ Lexeme.Suffix reading.settings.radix.base base mark) := by
  refine ⟨?_, ?_, ?_⟩
  · intro number text written
    obtain ⟨first, more, rfl, notBlank, scanned⟩ :=
      Lexeme.exists_scan_of_numberNotation written ends
    have read := readParts_cons_of_scan notBlank scanned
    rw [UInt16.ofNat_mod_size]
    refine ⟨read, ?_⟩
    intro blank
    rw [List.cons_append, read, readParts_of_blank (List.dropWhile_eq_nil_iff.2 blank)]
    rfl
  · intro first more isDigit alphanum noNumber
    have noRun (number : Nat) (written : Lexeme.RunNotation _ number (first :: more)) : False :=
      noNumber number (.run isDigit written)
    exact readParts_cons_of_scan_error (Lexeme.isBlank_of_isDigit isDigit)
      (Lexeme.scan_of_not_runNotation isDigit alphanum noRun ends)
  · intro number digits mark value spelled letter below
    have digit : Text.IsDigitOf value mark := by
      rcases letter with ⟨lower, rfl⟩ | ⟨lower, rfl⟩
      · exact Lexeme.isDigitOf_eleven lower
      · exact Lexeme.isDigitOf_thirteen lower
    refine ⟨spelled.append_digit reading.settings.radix.two_le below digit, ?_⟩
    intro base suffix
    have small := reading.settings.radix.le_sixteen
    have noDigit := suffix.digitValue?_eq_none small
    rw [(Text.digitValue?_eq_some_iff small).2 ⟨below, digit⟩] at noDigit
    contradiction

theorem readParts_number_of_radix_sixteen :
    (∀ next ∈ [' '].head?, next.isAlphanum = false) ∧
    readParts { settings := { radix := { base := 16 } } } false "0010001H ".toList =
      .ok [.number 1] ∧
    readParts { settings := { radix := { base := 16 } } } false "12g ".toList =
      .error (.malformedNumber "12g" 1) ∧
    Text.Spells 16 (1 * 16 + 13) ['1', 'D'] := by
  have ends : ∀ next ∈ [' '].head?, next.isAlphanum = false := by
    intro next isNext
    cases isNext
    rfl
  have spelled : Text.Spells 16 65537 ['0', '0', '1', '0', '0', '0', '1'] :=
    ⟨by decide, 2, by decide⟩
  have one : Text.Spells 16 1 ['1'] := ⟨by decide, 0, by decide⟩
  have noNumber : ∀ number, ¬ NumberNotation 16 number ['1', '2', 'g'] := by
    intro number written
    cases written with
    | run _ written =>
        have value := (Lexeme.numberValue?_eq_some_iff (by decide) (by decide) (by decide)).2
          ⟨number, written, rfl⟩
        have none : Lexeme.numberValue? 16 ['1', '2', 'g'] = none := by decide
        exact nomatch none.symm.trans value
    | marked written => cases written
  obtain ⟨numbers, others, digits⟩ :=
    readParts_number { settings := { radix := { base := 16 } } } false ends
  refine ⟨ends, ?_, ?_, ?_⟩
  · exact (numbers 65537 _ (.run (by decide) (.suffixed (.hexadecimal (by decide)) spelled))).2
      (List.all_eq_true.1 rfl)
  · exact others '1' ['2', 'g'] (by decide) (List.all_eq_true.1 rfl) noNumber
  · exact (digits 1 _ 'D' 13 one (.inr ⟨by decide, rfl⟩) (by decide)).1

end RelocExpr
