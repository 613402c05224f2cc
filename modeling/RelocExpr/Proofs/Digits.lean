import Mathlib.Data.List.Forall2
import Mathlib.Data.Nat.Digits.Defs
import RelocExpr.Text.Numeral

/-!
# Digits and the numbers they spell

A text spells a number in a base when it has the digits of the number after any number of
zeros.  Such texts are read as the number modulo 2^16, and no others are read.
-/

namespace RelocExpr.Text

/-! ## One digit -/

/-- The character is the digit of this value, a letter in either case. -/
def IsDigitOf (value : Nat) (character : Char) : Prop :=
  character = Nat.digitChar value ∨ character = (Nat.digitChar value).toUpper

instance (value : Nat) (character : Char) : Decidable (IsDigitOf value character) :=
  inferInstanceAs (Decidable (_ ∨ _))

variable {base value : Nat} {character : Char}

/-- A character has its value in every base that is large enough. -/
theorem digitValue?_eq_some_iff_sixteen (small : base ≤ 16) :
    digitValue? base character = some value ↔
      digitValue? 16 character = some value ∧ value < base := by
  simp only [digitValue?, Option.filter_eq_some_iff, decide_eq_true_eq]
  constructor
  · rintro ⟨found, below⟩
    exact ⟨⟨found, by omega⟩, below⟩
  · rintro ⟨⟨found, -⟩, below⟩
    exact ⟨found, below⟩

theorem isAlphanum_of_digitValue? (found : (digitValue? base character).isSome = true) :
    character.isAlphanum = true := by
  rw [Char.isAlphanum, Bool.or_eq_true]
  by_contra neither
  rw [not_or] at neither
  simp [digitValue?, neither.1, neither.2] at found

theorem toNat_lt_of_isAlphanum (alphanum : character.isAlphanum = true) :
    character.toNat < 128 := by
  unfold Char.isAlphanum Char.isAlpha Char.isUpper Char.isLower Char.isDigit at alphanum
  simp only [Bool.or_eq_true, Bool.and_eq_true, decide_eq_true_eq, UInt32.le_iff_toNat_le,
    ge_iff_le, Char.toNat_val] at alphanum
  change ((65 ≤ character.toNat ∧ character.toNat ≤ 90) ∨
    (97 ≤ character.toNat ∧ character.toNat ≤ 122)) ∨
    (48 ≤ character.toNat ∧ character.toNat ≤ 57) at alphanum
  omega

private theorem digitValue?_ofNat : ∀ code < 128, ∀ value < 16,
    digitValue? 16 (.ofNat code) = some value ↔ IsDigitOf value (.ofNat code) := by
  decide +kernel

private theorem toNat_lt_of_isDigitOf_of_lt : ∀ value < 16,
    (Nat.digitChar value).toNat < 128 ∧ (Nat.digitChar value).toUpper.toNat < 128 := by
  decide

/-- A character has a value in a base when it is the digit of that value. -/
theorem digitValue?_eq_some_iff (small : base ≤ 16) :
    digitValue? base character = some value ↔ value < base ∧ IsDigitOf value character := by
  rw [digitValue?_eq_some_iff_sixteen small, and_comm, and_congr_right_iff]
  intro below
  have below16 : value < 16 := by omega
  by_cases ascii : character.toNat < 128
  · have byCode := digitValue?_ofNat character.toNat ascii value below16
    rwa [Char.ofNat_toNat] at byCode
  · constructor
    · intro found
      have alphanum := isAlphanum_of_digitValue? (Option.isSome_of_eq_some found)
      exact absurd (toNat_lt_of_isAlphanum alphanum) ascii
    · have ascii' := toNat_lt_of_isDigitOf_of_lt value below16
      rintro (rfl | rfl)
      · exact absurd ascii'.1 ascii
      · exact absurd ascii'.2 ascii

/-! ## Several digits -/

/-- The characters are the digits of the number after any number of zeros, at least one
character in all. -/
def Spells (base number : Nat) (text : List Char) : Prop :=
  text ≠ [] ∧
    ∃ zeros, List.Forall₂ IsDigitOf
      (List.replicate zeros 0 ++ (Nat.digits base number).reverse) text

/-- Digits without the zeros at their front are the digits of their number. -/
theorem exists_eq_replicate_append_digits (two_le : 2 ≤ base) (values : List Nat)
    (below : ∀ value ∈ values, value < base) :
    ∃ zeros, values = List.replicate zeros 0 ++
      (Nat.digits base (Nat.ofDigits base values.reverse)).reverse := by
  induction values with
  | nil => exact ⟨0, by simp⟩
  | cons first rest ih =>
      cases first with
      | zero =>
          have restBelow : ∀ value ∈ rest, value < base :=
            fun value member => below value (List.mem_cons_of_mem _ member)
          obtain ⟨zeros, split⟩ := ih restBelow
          refine ⟨zeros + 1, ?_⟩
          rw [Nat.ofDigits_reverse_zero_cons, List.replicate_succ, List.cons_append, ← split]
      | succ first =>
          refine ⟨0, ?_⟩
          have belowReverse : ∀ value ∈ (first.succ :: rest).reverse, value < base :=
            fun value member => below value (List.mem_reverse.1 member)
          rw [Nat.digits_ofDigits base (by omega) _ belowReverse (by simp)]
          simp

/-- A text spells the number that its digits have in the base. -/
theorem spells_iff (two_le : 2 ≤ base) {number : Nat} {text : List Char} :
    Spells base number text ↔
      text ≠ [] ∧ ∃ values, List.Forall₂ IsDigitOf values text ∧
        (∀ value ∈ values, value < base) ∧ Nat.ofDigits base values.reverse = number := by
  apply and_congr_right
  intro _
  constructor
  · rintro ⟨zeros, digits⟩
    refine ⟨_, digits, ?_, ?_⟩
    · intro value member
      rcases List.mem_append.1 member with zero | digit
      · rw [List.eq_of_mem_replicate zero]
        omega
      · exact Nat.digits_lt_base (by omega) (List.mem_reverse.1 digit)
    · rw [List.reverse_append, List.reverse_reverse, List.reverse_replicate,
        Nat.ofDigits_append_replicate_zero, Nat.ofDigits_digits]
  · rintro ⟨values, digits, below, rfl⟩
    obtain ⟨zeros, split⟩ := exists_eq_replicate_append_digits two_le values below
    exact ⟨zeros, split ▸ digits⟩

/-- One more digit. -/
theorem Spells.append_digit (two_le : 2 ≤ base) {number : Nat} {text : List Char}
    (spelled : Spells base number text) (below : value < base)
    (digit : IsDigitOf value character) :
    Spells base (number * base + value) (text ++ [character]) := by
  obtain ⟨-, values, digits, allBelow, rfl⟩ := (spells_iff two_le).1 spelled
  refine (spells_iff two_le).2 ⟨by simp, values ++ [value], ?_, ?_, ?_⟩
  · exact List.rel_append digits (.cons digit .nil)
  · intro other member
    rcases List.mem_append.1 member with earlier | last
    · exact allBelow other earlier
    · exact List.mem_singleton.1 last ▸ below
  · rw [List.reverse_append, List.reverse_singleton, List.singleton_append,
      Nat.ofDigits_cons, Nat.mul_comm, Nat.add_comm]

/-- Every character of a spelling is a digit. -/
theorem Spells.isSome_digitValue? (two_le : 2 ≤ base) (small : base ≤ 16) {number : Nat}
    {text : List Char} (spelled : Spells base number text) :
    ∀ character ∈ text, (digitValue? base character).isSome = true := by
  obtain ⟨-, values, digits, below, -⟩ := (spells_iff two_le).1 spelled
  clear spelled
  induction digits with
  | nil => simp
  | @cons value character values text digit digits ih =>
      intro other member
      rcases List.mem_cons.1 member with rfl | later
      · have found := (digitValue?_eq_some_iff small).2 ⟨below value (by simp), digit⟩
        rw [found]
        rfl
      · exact ih (fun value member => below value (List.mem_cons_of_mem _ member)) other later

/-! ## Reading digits -/

/-- Digits are appended to a number in front of them, modulo 2^16. -/
theorem appendDigits_eq_some_iff (small : base ≤ 16) {start : Nat} {text : List Char}
    {result : UInt16} :
    appendDigits base (.ofNat start) text = some result ↔
      ∃ values, List.Forall₂ IsDigitOf values text ∧ (∀ value ∈ values, value < base) ∧
        result = .ofNat (values.foldl (fun total value => total * base + value) start) := by
  induction text generalizing start with
  | nil => simp [appendDigits, eq_comm]
  | cons character rest ih =>
      rw [appendDigits]
      cases found : digitValue? base character with
      | none =>
          simp only [reduceCtorEq, false_iff, not_exists, not_and]
          intro values digits below
          cases digits with
          | cons digit digits =>
              have known := (digitValue?_eq_some_iff small).2 ⟨below _ List.mem_cons_self, digit⟩
              rw [found] at known
              contradiction
      | some value =>
          obtain ⟨below, digit⟩ := (digitValue?_eq_some_iff small).1 found
          dsimp only
          rw [← UInt16.ofNat_mul, ← UInt16.ofNat_add, ih]
          constructor
          · rintro ⟨values, digits, allBelow, rfl⟩
            refine ⟨value :: values, .cons digit digits, ?_, rfl⟩
            simpa [below] using allBelow
          · rintro ⟨values, digits, allBelow, rfl⟩
            cases digits with
            | @cons other _ values _ otherDigit digits =>
                have known := (digitValue?_eq_some_iff small).2
                  ⟨allBelow other List.mem_cons_self, otherDigit⟩
                obtain rfl : value = other := Option.some.inj (found.symm.trans known)
                exact ⟨values, digits, fun value member =>
                  allBelow value (List.mem_cons_of_mem _ member), rfl⟩

theorem foldl_eq_ofDigits_reverse (base : Nat) (values : List Nat) :
    values.foldl (fun total value => total * base + value) 0 =
      Nat.ofDigits base values.reverse := by
  rw [Nat.ofDigits_eq_foldr, List.foldr_reverse]
  congr 1
  funext total value
  rw [Nat.mul_comm, Nat.add_comm]
  rfl

/-- What is read as a number is what spells one in the base. -/
theorem readDigits?_eq_some_iff (two_le : 2 ≤ base) (small : base ≤ 16) {text : List Char}
    {result : UInt16} :
    readDigits? base text = some result ↔
      ∃ number, Spells base number text ∧ result = .ofNat number := by
  simp only [spells_iff two_le]
  cases text with
  | nil => simp [readDigits?]
  | cons character rest =>
      rw [readDigits?, List.isEmpty_cons, if_neg Bool.false_ne_true]
      change appendDigits base (.ofNat 0) _ = _ ↔ _
      rw [appendDigits_eq_some_iff small]
      simp only [foldl_eq_ofDigits_reverse]
      constructor
      · rintro ⟨values, digits, below, rfl⟩
        exact ⟨_, ⟨List.cons_ne_nil _ _, values, digits, below, rfl⟩, rfl⟩
      · rintro ⟨_, ⟨-, values, digits, below, rfl⟩, rfl⟩
        exact ⟨values, digits, below, rfl⟩

end RelocExpr.Text
