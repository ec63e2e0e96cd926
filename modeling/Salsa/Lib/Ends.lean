import Mathlib.Order.Bounds.Basic
import Mathlib.Order.MinMax

/-!
# Half-lines with open or closed ends

The two ends of an interval, over any linear order.
-/

namespace Ends

variable {α : Type*} [LinearOrder α]

/-- Everything above `a`, without `a` itself if the end is open. -/
def above (a : α) (isOpen : Bool) : Set α := if isOpen then Set.Ioi a else Set.Ici a

/-- Everything below `b`, without `b` itself if the end is open. -/
def below (b : α) (isOpen : Bool) : Set α := if isOpen then Set.Iio b else Set.Iic b

@[simp] theorem mem_above_open (a x : α) : x ∈ above a true ↔ a < x := Iff.rfl

@[simp] theorem mem_above_closed (a x : α) : x ∈ above a false ↔ a ≤ x := Iff.rfl

@[simp] theorem mem_below_open (b x : α) : x ∈ below b true ↔ x < b := Iff.rfl

@[simp] theorem mem_below_closed (b x : α) : x ∈ below b false ↔ x ≤ b := Iff.rfl

theorem le_of_mem_above (a x : α) (o : Bool) (h : x ∈ above a o) : a ≤ x := by
  cases o
  · exact h
  · exact le_of_lt h

theorem le_of_mem_below (b x : α) (o : Bool) (h : x ∈ below b o) : x ≤ b := by
  cases o
  · exact h
  · exact le_of_lt h

theorem mem_above_of_lt (a x : α) (o : Bool) (h : a < x) : x ∈ above a o := by
  cases o
  · exact le_of_lt h
  · exact h

theorem mem_below_of_lt (b x : α) (o : Bool) (h : x < b) : x ∈ below b o := by
  cases o
  · exact le_of_lt h
  · exact h

theorem above_subset_of_lt (a a' : α) (o o' : Bool) (h : a < a') : above a' o' ⊆ above a o :=
  fun x hx => mem_above_of_lt a x o (lt_of_lt_of_le h (le_of_mem_above a' x o' hx))

theorem above_subset_of_open (a : α) (o o' : Bool) (h : o = true → o' = true) : above a o' ⊆ above a o := by
  intro x hx
  cases o
  · exact le_of_mem_above a x o' hx
  · exact h rfl ▸ hx

theorem below_subset_of_lt (b b' : α) (o o' : Bool) (h : b' < b) : below b' o' ⊆ below b o :=
  fun x hx => mem_below_of_lt b x o (lt_of_le_of_lt (le_of_mem_below b' x o' hx) h)

theorem below_subset_of_open (b : α) (o o' : Bool) (h : o = true → o' = true) : below b o' ⊆ below b o := by
  intro x hx
  cases o
  · exact le_of_mem_below b x o' hx
  · exact h rfl ▸ hx

/-- Between two ends there is no smaller lower bound than the lower one, be they open or closed. -/
theorem isGLB_between [DenselyOrdered α] (a b : α) (o o' : Bool) (h : a < b) : IsGLB (above a o ∩ below b o') a := by
  refine ⟨fun x hx => le_of_mem_above a x o hx.1, fun c hc => ?_⟩
  by_contra hlt
  obtain ⟨x, hax, hx⟩ := exists_between (lt_min h (not_le.mp hlt))
  obtain ⟨hxb, hxc⟩ := lt_min_iff.mp hx
  exact absurd (hc ⟨mem_above_of_lt a x o hax, mem_below_of_lt b x o' hxb⟩) (not_le.mpr hxc)

theorem isLUB_between [DenselyOrdered α] (a b : α) (o o' : Bool) (h : a < b) : IsLUB (above a o ∩ below b o') b := by
  refine ⟨fun x hx => le_of_mem_below b x o' hx.2, fun c hc => ?_⟩
  by_contra hlt
  obtain ⟨x, hx, hxb⟩ := exists_between (max_lt h (not_le.mp hlt))
  obtain ⟨hax, hcx⟩ := max_lt_iff.mp hx
  exact absurd (hc ⟨mem_above_of_lt a x o hax, mem_below_of_lt b x o' hxb⟩) (not_le.mpr hcx)

end Ends
