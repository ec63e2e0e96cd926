import Mathlib.Algebra.Order.Group.Abs

/-!
# A nearest point of a set

The candidates are the first point at or above a given one and the last one below it.
-/

namespace Nearest

variable {ι α : Type*} [AddCommGroup α] [LinearOrder α] [IsOrderedAddMonoid α] (f : ι → α) (S : Set ι) (x : α)

/-- No point of `S` lies nearer to `x` than `a` does. -/
def IsNearest (a : ι) : Prop := a ∈ S ∧ ∀ s ∈ S, |f a - x| ≤ |f s - x|

variable {f S x}

theorem isNearest_of_above (a : ι) (ha : a ∈ S) (hx : x ≤ f a) (habove : ∀ s ∈ S, x ≤ f s → f a ≤ f s)
    (hbelow : ∀ s ∈ S, f s < x → f a - x ≤ x - f s) : IsNearest f S x a := by
  refine ⟨ha, fun s hs => ?_⟩
  rw [abs_of_nonneg (sub_nonneg.mpr hx)]
  rcases le_or_gt x (f s) with hle | hlt
  · rw [abs_of_nonneg (sub_nonneg.mpr hle)]
    exact sub_le_sub_right (habove s hs hle) x
  · rw [abs_of_neg (sub_neg.mpr hlt), neg_sub]
    exact hbelow s hs hlt

theorem isNearest_of_below (b : ι) (hb : b ∈ S) (hx : f b < x) (hbelow : ∀ s ∈ S, f s < x → f s ≤ f b)
    (habove : ∀ s ∈ S, x ≤ f s → x - f b ≤ f s - x) : IsNearest f S x b := by
  refine ⟨hb, fun s hs => ?_⟩
  rw [abs_of_neg (sub_neg.mpr hx), neg_sub]
  rcases le_or_gt x (f s) with hle | hlt
  · rw [abs_of_nonneg (sub_nonneg.mpr hle)]
    exact habove s hs hle
  · rw [abs_of_neg (sub_neg.mpr hlt), neg_sub]
    exact sub_le_sub_left (hbelow s hs hlt) x

end Nearest
