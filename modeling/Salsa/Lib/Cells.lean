import Mathlib.Logic.Function.Basic

/-!
# Records by address

What the addresses hold after a record was stored or freed.
-/

namespace Cells

variable {κ α : Type*} {cells : κ → Option α} {k k' : κ} {x y : α}

theorem ne_of_free (hfree : cells k = none) (h : cells k' = some y) : k' ≠ k := by
  rintro rfl
  rw [hfree] at h
  cases h

variable [DecidableEq κ]

theorem stored_eq_some :
    Function.update cells k (some x) k' = some y ↔ k' = k ∧ x = y ∨ k' ≠ k ∧ cells k' = some y := by
  rcases eq_or_ne k' k with rfl | hne
  · rw [Function.update_self]
    simp
  · rw [Function.update_of_ne hne]
    simp [hne]

theorem freed_eq_some : Function.update cells k none k' = some y ↔ k' ≠ k ∧ cells k' = some y := by
  rcases eq_or_ne k' k with rfl | hne
  · rw [Function.update_self]
    simp
  · rw [Function.update_of_ne hne]
    simp [hne]

theorem stored_of_free (hfree : cells k = none) (h : cells k' = some y) :
    Function.update cells k (some x) k' = some y := stored_eq_some.mpr (.inr ⟨ne_of_free hfree h, h⟩)

end Cells
