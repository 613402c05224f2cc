/-!
# Results that may be errors

When a mapped result, one with a mapped error or one that is gone on with is a success or an
error.
-/

namespace RelocExpr

universe u v w

theorem Except.map_eq_ok_iff {ε : Type u} {α : Type v} {β : Type w} {f : α → β}
    {result : Except ε α} {image : β} :
    result.map f = .ok image ↔ ∃ value, result = .ok value ∧ f value = image := by
  cases result <;> simp [Except.map]

theorem Except.map_eq_error_iff {ε : Type u} {α : Type v} {β : Type w}
    {f : α → β} {result : Except ε α} {error : ε} :
    result.map f = .error error ↔ result = .error error := by
  cases result <;> simp [Except.map]

theorem Except.bind_eq_ok_iff {ε : Type u} {α β : Type v} {f : α → Except ε β}
    {result : Except ε α} {image : β} :
    result >>= f = .ok image ↔ ∃ value, result = .ok value ∧ f value = .ok image := by
  cases result <;> simp [bind, Except.bind]

theorem Except.mapError_eq_ok_iff {ε : Type u} {δ : Type v} {α : Type w} {f : ε → δ}
    {result : Except ε α} {value : α} :
    result.mapError f = .ok value ↔ result = .ok value := by
  cases result with
  | error =>
      constructor
      · exact nofun
      · exact nofun
  | ok =>
      constructor
      · intro equal
        cases equal
        rfl
      · intro equal
        cases equal
        rfl

theorem Except.mapError_eq_error_iff {ε : Type u} {δ : Type v} {α : Type w}
    {f : ε → δ} {result : Except ε α} {image : δ} :
    result.mapError f = .error image ↔
      ∃ error, result = .error error ∧ f error = image := by
  cases result with
  | error error =>
      constructor
      · intro equal
        exact ⟨error, rfl, Except.error.inj equal⟩
      · rintro ⟨other, same, image⟩
        cases same
        exact congrArg Except.error image
  | ok =>
      constructor
      · exact nofun
      · exact nofun

end RelocExpr
