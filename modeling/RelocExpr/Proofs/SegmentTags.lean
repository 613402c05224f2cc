import Mathlib.Data.List.Basic
import Mathlib.Data.List.TakeWhile
import RelocExpr.Command.Value
import RelocExpr.Proofs.LetterCase

/-!
# Segments of values

The segment of a value is what follows its last colon.  It is recognized in any letter
case, and the block of a common segment is in upper case.
-/

namespace RelocExpr

/-! ## White space -/

namespace Text

variable {character : Char}

theorem toUpper_toLower (character : Char) : character.toLower.toUpper = character.toUpper := by
  unfold Char.toLower
  split
  · next isUpper =>
      have high : character.toNat < 91 := by
        have bound := isUpper.2
        simp only [UInt32.le_iff_toNat_le] at bound
        exact Nat.lt_succ_of_le bound
      have ascii : ∀ code < 91,
          (Char.ofNat code).toLower.toUpper = (Char.ofNat code).toUpper := by decide
      have same := ascii character.toNat high
      unfold Char.toLower at same
      rwa [Char.ofNat_toNat, dif_pos isUpper] at same
  · rfl

theorem upper_ofList_map_toLower (text : List Char) :
    upper (.ofList (text.map Char.toLower)) = upper (.ofList text) := by
  have both : Char.toUpper ∘ Char.toLower = Char.toUpper := funext toUpper_toLower
  rw [upper_ofList, upper_ofList, List.map_map, both]

/-- The characters with the property `White_Space`. -/
def whiteCharacters : List Char :=
  whiteSpaceRanges.flatMap fun (first, last) =>
    (List.range' first (last + 1 - first)).map Char.ofNat

theorem mem_whiteCharacters (white : isWhite character = true) :
    character ∈ whiteCharacters := by
  obtain ⟨⟨first, last⟩, listed, inside⟩ := List.any_eq_true.1 white
  simp only [Bool.and_eq_true, decide_eq_true_eq] at inside
  have code : character.toNat ∈ List.range' first (last + 1 - first) := by
    rw [List.mem_range'_1]
    omega
  exact List.mem_flatMap.2
    ⟨(first, last), listed, List.mem_map.2 ⟨character.toNat, code, Char.ofNat_toNat character⟩⟩

theorem isWhite_of_isBlank (blank : isBlank character = true) : isWhite character = true := by
  rw [isBlank, Bool.or_eq_true, decide_eq_true_eq, decide_eq_true_eq] at blank
  rcases blank with rfl | rfl <;> decide

@[simp] theorem isWhite_toUpper (character : Char) :
    isWhite character.toUpper = isWhite character :=
  apply_toUpper isWhite (by decide) character

@[simp] theorem isWhite_toLower (character : Char) :
    isWhite character.toLower = isWhite character := by
  rw [← isWhite_toUpper character.toLower, toUpper_toLower, isWhite_toUpper]

/-- Letters at the ends of a text may have another case. -/
theorem trim_isWhite_eq_self {text : List Char}
    (keepFirst : (text.map Char.toLower).head?.any isWhite = false)
    (keepLast : (text.map Char.toLower).getLast?.any isWhite = false) :
    trim isWhite text = text :=
  trim_eq_self (by simpa [Option.any_eq_false] using keepFirst)
    (by simpa [Option.any_eq_false] using keepLast)

end Text

/-- White space begins no lexeme. -/
theorem Lexeme.scan_of_isWhite {first : Char} (white : Text.isWhite first = true)
    (reading : Reading) (afterOperand : Bool) (rest : List Char) :
    scan reading afterOperand first rest = .error (.strayCharacter first 1) := by
  have outside : Text.whiteCharacters.all (fun character =>
      character.isDigit = false ∧ character ∉ ['#', '%', '\'', '"', ':'] ∧
        character.toLower ≠ 'x' ∧ punctuation? afterOperand character = none ∧
        isWordStart character = false) = true := by
    cases afterOperand <;> decide
  obtain ⟨noDigit, noMark, noHex, noSign, noWord⟩ :=
    of_decide_eq_true (List.all_eq_true.1 outside first (Text.mem_whiteCharacters white))
  simp only [List.mem_cons, not_or] at noMark
  simp [scan, noDigit, noMark, noHex, noSign, noWord]

/-! ## The last colon -/

namespace Command

variable {text value tag : List Char} {segment : Segment}

theorem ne_colon_of_mem_reverse (noColon : ':' ∉ text) :
    ∀ character ∈ text.reverse, decide (character ≠ ':') = true := by
  intro character member
  exact decide_eq_true fun isColon => noColon (isColon ▸ List.mem_reverse.1 member)

theorem splitLastColon?_of_not_mem (noColon : ':' ∉ text) : splitLastColon? text = none := by
  have dropped : text.reverse.dropWhile (· ≠ ':') = [] :=
    List.dropWhile_eq_nil_iff.2 (ne_colon_of_mem_reverse noColon)
  rw [splitLastColon?]
  simp only [dropped]

theorem splitLastColon?_append (noColon : ':' ∉ tag) (value : List Char) :
    splitLastColon? (value ++ ':' :: tag) = some (value, tag) := by
  have keeps := ne_colon_of_mem_reverse noColon
  have turned : (value ++ ':' :: tag).reverse = tag.reverse ++ ':' :: value.reverse := by simp
  rw [splitLastColon?]
  simp only [turned]
  rw [List.dropWhile_append_of_pos keeps, List.takeWhile_append_of_pos keeps]
  simp

theorem exists_last_colon (colon : ':' ∈ text) :
    ∃ value tag, text = value ++ ':' :: tag ∧ ':' ∉ tag := by
  obtain ⟨after, before, split, noColon⟩ :=
    List.eq_append_cons_of_mem (List.mem_reverse.2 colon)
  refine ⟨before.reverse, after.reverse, ?_, mt List.mem_reverse.1 noColon⟩
  rw [← List.reverse_reverse text, split]
  simp

/-! ## Segments -/

/-- The segments that have names, with their names in lower case. -/
def namedSegments : List (List Char × Segment) :=
  [("absolute".toList, .absolute), ("abs".toList, .absolute), ("code".toList, .code),
    ("data".toList, .data)]

/-- The spellings of a segment. -/
inductive SegmentTag : List Char → Segment → Prop where
  | named {tag : List Char} {segment : Segment}
      (spelled : (tag.map Char.toLower, segment) ∈ namedSegments) : SegmentTag tag segment
  | common {mark block : List Char} (spelled : mark.map Char.toLower = "common=".toList)
      (notEmpty : block ≠ []) (noColon : ':' ∉ block)
      (ends : ∀ last ∈ block.getLast?, Text.isWhite last = false) :
      SegmentTag (mark ++ block) (.common (Text.upper (.ofList block)))

theorem SegmentTag.not_mem_colon (spells : SegmentTag tag segment) : ':' ∉ tag := by
  -- A colon is no letter, so it would also be in the text in lower case.
  have absent {text : List Char} (noColon : ':' ∉ text.map Char.toLower) : ':' ∉ text := by
    intro colon
    exact noColon (List.mem_map.2 ⟨':', colon, rfl⟩)
  cases spells with
  | named spelled =>
      have noColons : namedSegments.all (fun entry => ':' ∉ entry.1) = true := by decide
      exact absent (of_decide_eq_true (List.all_eq_true.1 noColons _ spelled))
  | common spelled _ noColon _ =>
      rw [List.mem_append, not_or]
      refine ⟨absent ?_, noColon⟩
      rw [spelled]
      decide

theorem SegmentTag.trim_eq_self (spells : SegmentTag tag segment) :
    Text.trim Text.isWhite tag = tag := by
  cases spells with
  | named spelled =>
      have ends : namedSegments.all (fun entry =>
          entry.1.head?.any Text.isWhite = false ∧
            entry.1.getLast?.any Text.isWhite = false) = true := by
        decide
      obtain ⟨keepFirst, keepLast⟩ := of_decide_eq_true (List.all_eq_true.1 ends _ spelled)
      exact Text.trim_isWhite_eq_self keepFirst keepLast
  | common spelled notEmpty _ ends =>
      apply Text.trim_isWhite_eq_self
      · rw [List.map_append, spelled]
        rfl
      · rw [List.map_append, List.getLast?_append_of_ne_nil _ (by simpa)]
        simpa [Option.any_eq_false] using ends

theorem SegmentTag.segmentOfTag?_eq (spells : SegmentTag tag segment) :
    segmentOfTag? tag = some segment := by
  rw [segmentOfTag?, spells.trim_eq_self]
  cases spells with
  | named spelled =>
      simp only [namedSegments, List.mem_cons, Prod.mk.injEq, List.not_mem_nil, or_false]
        at spelled
      rcases spelled with ⟨name, rfl⟩ | ⟨name, rfl⟩ | ⟨name, rfl⟩ | ⟨name, rfl⟩
      all_goals
        simp only [name]
        rfl
  | common spelled notEmpty _ _ =>
      simp only [List.map_append, spelled]
      simp [notEmpty, Text.upper_ofList_map_toLower]

end Command

end RelocExpr
