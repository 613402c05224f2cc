/-!
# Texts, their byte widths and their letter case

Columns and spans count the bytes of UTF-8, so a text that is being read is a
list of characters together with the number of bytes it takes.  Names are
compared without regard to the case of ASCII letters; other letters keep theirs.
-/

namespace RelocExpr.Text

/-- Number of bytes of a text in UTF-8. -/
def byteWidth : List Char → Nat
  | [] => 0
  | head :: rest => head.utf8Size + byteWidth rest

@[simp] theorem byteWidth_nil : byteWidth [] = 0 := rfl

@[simp] theorem byteWidth_cons (head : Char) (rest : List Char) :
    byteWidth (head :: rest) = head.utf8Size + byteWidth rest := rfl

@[simp] theorem byteWidth_append (left right : List Char) :
    byteWidth (left ++ right) = byteWidth left + byteWidth right := by
  induction left with
  | nil => simp
  | cons head rest ih => simp [ih, Nat.add_assoc]

theorem byteWidth_pos {text : List Char} (notEmpty : text ≠ []) : 0 < byteWidth text := by
  cases text with
  | nil => contradiction
  | cons head rest => exact Nat.add_pos_left head.utf8Size_pos _

/-- A space or a tab, the only characters that separate lexemes. -/
def isBlank (character : Char) : Bool :=
  character = ' ' || character = '\t'

/-- The text without the characters of a class at both of its ends. -/
def trim (drop : Char → Bool) (text : List Char) : List Char :=
  ((text.dropWhile drop).reverse.dropWhile drop).reverse

/-- What is dropped at the ends of a text belongs to the class. -/
theorem exists_eq_append_trim (drop : Char → Bool) (text : List Char) :
    ∃ trail, (∀ character ∈ trail, drop character = true) ∧
      text = text.takeWhile drop ++ trim drop text ++ trail := by
  refine ⟨((text.dropWhile drop).reverse.takeWhile drop).reverse, ?_, ?_⟩
  · intro character member
    have all := List.all_takeWhile (p := drop) (l := (text.dropWhile drop).reverse)
    exact List.all_eq_true.1 all character (List.mem_reverse.1 member)
  · rw [trim, List.append_assoc, ← List.reverse_append, List.takeWhile_append_dropWhile,
      List.reverse_reverse, List.takeWhile_append_dropWhile]

/-- A text that has no such character at its ends stays as it is. -/
theorem trim_eq_self {drop : Char → Bool} {text : List Char}
    (keepFirst : ∀ first ∈ text.head?, drop first = false)
    (keepLast : ∀ last ∈ text.getLast?, drop last = false) : trim drop text = text := by
  have kept {text : List Char} (keep : ∀ first ∈ text.head?, drop first = false) :
      text.dropWhile drop = text := by
    cases text with
    | nil => rfl
    | cons first rest => exact List.dropWhile_cons_of_neg (by simp [keep first rfl])
  rw [trim, kept keepFirst, kept (by rwa [List.head?_reverse]), List.reverse_reverse]

theorem trim_of_ends {drop : Char → Bool} {first last : Char} {middle : List Char}
    (keepFirst : drop first = false) (keepLast : drop last = false) :
    trim drop (first :: (middle ++ [last])) = first :: (middle ++ [last]) :=
  trim_eq_self (by simpa) (by rw [← List.cons_append, List.getLast?_concat]; simpa)

theorem dropWhile_append_cons {drop : Char → Bool} {kept : Char} (keep : drop kept = false)
    (before after : List Char) :
    (before ++ kept :: after).dropWhile drop = before.dropWhile drop ++ kept :: after := by
  rw [List.dropWhile_append]
  split
  · next empty =>
      rw [List.isEmpty_iff.1 empty, List.dropWhile_cons_of_neg (by rw [keep]; decide)]
      rfl
  · rfl

/-- What is dropped at the ends of a text lies outside of what has to be kept. -/
theorem exists_trim_append {drop : Char → Bool} {core : List Char} (notEmpty : core ≠ [])
    (keep : ∀ character ∈ core, drop character = false) (before after : List Char) :
    ∃ lead front back trail,
      before = lead ++ front ∧ after = back ++ trail ∧
        (∀ character ∈ lead, drop character = true) ∧
        (∀ character ∈ trail, drop character = true) ∧
        trim drop (before ++ core ++ after) = front ++ core ++ back := by
  refine ⟨before.takeWhile drop, before.dropWhile drop, (after.reverse.dropWhile drop).reverse,
    (after.reverse.takeWhile drop).reverse, List.takeWhile_append_dropWhile.symm, ?_,
    List.all_eq_true.1 List.all_takeWhile, ?_, ?_⟩
  · rw [← List.reverse_append, List.takeWhile_append_dropWhile, List.reverse_reverse]
  · intro character member
    exact List.all_eq_true.1 List.all_takeWhile character (List.mem_reverse.1 member)
  · have dropped : (before ++ core ++ after).dropWhile drop =
        before.dropWhile drop ++ core ++ after := by
      obtain ⟨first, more, rfl⟩ := List.exists_cons_of_ne_nil notEmpty
      have whole := dropWhile_append_cons (keep first List.mem_cons_self) before (more ++ after)
      simpa using whole
    have reversed : core.reverse ≠ [] := mt List.reverse_eq_nil_iff.1 notEmpty
    obtain ⟨last, others, split⟩ := List.exists_cons_of_ne_nil reversed
    have keepLast := keep last (List.mem_reverse.1 (split ▸ List.mem_cons_self))
    rw [trim, dropped, List.reverse_append, List.reverse_append, split, List.cons_append,
      dropWhile_append_cons keepLast, List.reverse_append, ← List.cons_append, ← split]
    simp

/-- The text with its ASCII letters in upper case. -/
def upper (text : String) : String :=
  .ofList (text.toList.map Char.toUpper)

/-- The text with its ASCII letters in lower case. -/
def lower (text : String) : String :=
  .ofList (text.toList.map Char.toLower)

@[simp] theorem toList_upper (text : String) :
    (upper text).toList = text.toList.map Char.toUpper := by
  simp [upper]

private theorem toUpper_toUpper (character : Char) :
    character.toUpper.toUpper = character.toUpper := by
  -- A letter in upper case is outside the range that is changed.
  rw [Char.toUpper.eq_def character.toUpper, dif_neg]
  unfold Char.toUpper
  split <;> grind [UInt32.toNat_add, Char.toNat_val]

@[simp] theorem upper_upper (text : String) : upper (upper text) = upper text := by
  apply String.toList_inj.1
  have twice : Char.toUpper ∘ Char.toUpper = Char.toUpper := funext toUpper_toUpper
  rw [toList_upper, toList_upper, List.map_map, twice]

theorem upper_append (left right : String) :
    upper (left ++ right) = upper left ++ upper right := by
  apply String.toList_inj.1
  simp

end RelocExpr.Text
