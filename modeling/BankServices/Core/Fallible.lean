/-
Fallible computations (`Except`): what a success or a failure of a sequenced computation says about its parts.
-/
import Mathlib.Tactic

namespace BankServices.Fallible

variable {ε α β : Type}

theorem bind_ok_iff {x : Except ε α} {f : α → Except ε β} {b : β} :
    (x >>= f) = .ok b ↔ ∃ a, x = .ok a ∧ f a = .ok b := by
  cases x with
  | error e =>
    constructor
    · intro h; cases h
    · rintro ⟨a, h, -⟩; cases h
  | ok a =>
    constructor
    · intro h; exact ⟨a, rfl, h⟩
    · rintro ⟨a', h, h'⟩; cases h; exact h'

theorem bind_error_iff {x : Except ε α} {f : α → Except ε β} {e : ε} :
    (x >>= f) = .error e ↔ x = .error e ∨ ∃ a, x = .ok a ∧ f a = .error e := by
  cases x with
  | error e' =>
    constructor
    · intro h; cases h; exact Or.inl rfl
    · rintro (h | ⟨a, h, -⟩)
      · cases h; rfl
      · cases h
  | ok a =>
    constructor
    · intro h; exact Or.inr ⟨a, rfl, h⟩
    · rintro (h | ⟨a', h, h'⟩)
      · cases h
      · cases h; exact h'

theorem map_ok_iff {x : Except ε α} {f : α → β} {b : β} : x.map f = .ok b ↔ ∃ a, x = .ok a ∧ f a = b := by
  cases x with
  | error e =>
    constructor
    · intro h; cases h
    · rintro ⟨a, h, -⟩; cases h
  | ok a =>
    constructor
    · intro h; cases h; exact ⟨a, rfl, rfl⟩
    · rintro ⟨a', h, h'⟩; cases h; cases h'; rfl

end BankServices.Fallible
