import Mathlib.Order.Bounds.Basic
import Mathlib.Order.Monotone.Defs
import Mathlib.Algebra.Order.Ring.Int
import Mathlib.Tactic.Linarith
import Mathlib.Data.Int.ConditionallyCompleteOrder

/-!
# Rounding against a monotone function

Which argument stands for a value that the function may not have, and integer division as a
rounded inverse.
-/

namespace Rounding

section Order

variable {α β : Type} [LinearOrder α] [LinearOrder β]

/-- The first of `s` where `f` gets up to `g`, or `top` if it never does. -/
def RoundsUp (s : Set α) (f : α → β) (top : α) (g : β) (v : α) : Prop :=
  IsLeast {u ∈ s | g ≤ f u} v ∨ ({u ∈ s | g ≤ f u} = ∅ ∧ v = top)

/-- The last of `s` where `f` does not exceed `g`, or `bottom` if it always does. -/
def RoundsDown (s : Set α) (f : α → β) (bottom : α) (g : β) (v : α) : Prop :=
  IsGreatest {u ∈ s | f u ≤ g} v ∨ ({u ∈ s | f u ≤ g} = ∅ ∧ v = bottom)

theorem RoundsUp.of_value (s : Set α) (f : α → β) (top u v : α) (hf : StrictMonoOn f s) (hu : u ∈ s)
    (h : RoundsUp s f top (f u) v) : v = u := by
  rcases h with ⟨⟨hv, hge⟩, hleast⟩ | ⟨hempty, -⟩
  · exact le_antisymm (hleast ⟨hu, le_rfl⟩) ((hf.le_iff_le hu hv).mp hge)
  · exact absurd (hempty.subset (⟨hu, le_rfl⟩ : u ∈ {u' ∈ s | f u ≤ f u'})) (Set.notMem_empty u)

theorem RoundsDown.of_value (s : Set α) (f : α → β) (bottom u v : α) (hf : StrictMonoOn f s) (hu : u ∈ s)
    (h : RoundsDown s f bottom (f u) v) : v = u := by
  rcases h with ⟨⟨hv, hle⟩, hgreatest⟩ | ⟨hempty, -⟩
  · exact le_antisymm ((hf.le_iff_le hv hu).mp hle) (hgreatest ⟨hu, le_rfl⟩)
  · exact absurd (hempty.subset (⟨hu, le_rfl⟩ : u ∈ {u' ∈ s | f u' ≤ f u})) (Set.notMem_empty u)

theorem roundsUp_of_none (s : Set α) (f : α → β) (top : α) (g : β) (h : ∀ u ∈ s, f u < g) :
    RoundsUp s f top g top :=
  Or.inr ⟨Set.eq_empty_iff_forall_notMem.mpr fun u hu => absurd hu.2 (not_le.mpr (h u hu.1)), rfl⟩

theorem roundsDown_of_none (s : Set α) (f : α → β) (bottom : α) (g : β) (h : ∀ u ∈ s, g < f u) :
    RoundsDown s f bottom g bottom :=
  Or.inr ⟨Set.eq_empty_iff_forall_notMem.mpr fun u hu => absurd hu.2 (not_le.mpr (h u hu.1)), rfl⟩

end Order

/-! ## Division -/

/-- Division with the divisor less one added rounds up. -/
theorem ceil_le_iff (a b x : Int) (hb : 0 < b) : (a + (b - 1)) / b ≤ x ↔ a ≤ x * b := by
  rw [← Int.lt_add_one_iff, Int.ediv_lt_iff_lt_mul hb, add_mul, one_mul]
  omega

theorem floor_bounds (a b : Int) (hb : 0 < b) : a / b * b ≤ a ∧ a < (a / b + 1) * b :=
  ⟨Int.ediv_mul_le a hb.ne', Int.lt_ediv_add_one_mul_self a hb⟩

/-! ## A range laid on another one -/

/-- A value that is scaled down to a range and back comes back if it falls on a step. -/
theorem scale_back_iff (d from_width to_width : Int) (hfrom : 0 < from_width) (hto : 0 < to_width) :
    d * to_width / from_width * from_width / to_width = d ↔ from_width ∣ d * to_width := by
  constructor
  · intro h
    have hdown := Int.ediv_mul_le (d * to_width) hfrom.ne'
    have hback := Int.ediv_mul_le (d * to_width / from_width * from_width) hto.ne'
    rw [h] at hback
    exact ⟨d * to_width / from_width, by rw [mul_comm from_width]; exact le_antisymm hback hdown⟩
  · intro h
    rw [Int.ediv_mul_cancel h, Int.mul_ediv_cancel _ hto.ne']

/-- On a range that is at least as fine no two values fall together. -/
theorem scale_strictMono (from_width to_width : Int) (hfrom : 0 < from_width) (hfine : from_width ≤ to_width) :
    StrictMono fun d : Int => d * to_width / from_width := by
  intro d e hde
  have hstep : d * to_width + from_width ≤ e * to_width :=
    calc d * to_width + from_width ≤ d * to_width + to_width := by omega
      _ = (d + 1) * to_width := by rw [add_mul, one_mul]
      _ ≤ e * to_width := mul_le_mul_of_nonneg_right hde (by omega)
  have hquotient := Int.ediv_le_ediv hfrom hstep
  rw [Int.add_ediv_of_dvd_right (dvd_refl _), Int.ediv_self hfrom.ne'] at hquotient
  dsimp only
  omega

end Rounding
