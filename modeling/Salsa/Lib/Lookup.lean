import Mathlib.Data.List.Basic

/-!
# Lookups by part of a key

A search that compares less than the whole key finds the first entry that looks like the one in
question.
-/

namespace Lookup

variable {α : Type*} (found named : α → Bool)

/-- Nothing that is found stands in front of the entry that is named, or anywhere without one. -/
def NoneInFront (l : List α) : Prop :=
  ∀ before x after, l = before ++ x :: after → found x = true → named x = false → ∃ y ∈ before, named y = true

/-- The first entry that is found, with what is around it. -/
theorem findIdx_cases (l : List α) :
    (l.findIdx? found = none ∧ ∀ x ∈ l, found x = false) ∨
      ∃ before x after, l = before ++ x :: after ∧ (∀ y ∈ before, found y = false) ∧ found x = true ∧
        l.findIdx? found = some before.length := by
  induction l with
  | nil => exact .inl ⟨rfl, fun x hx => absurd hx List.not_mem_nil⟩
  | cons a l ih =>
    cases ha : found a with
    | true => exact .inr ⟨[], a, l, rfl, fun y hy => absurd hy List.not_mem_nil, ha, by simp [List.findIdx?_cons, ha]⟩
    | false =>
      rcases ih with ⟨hnone, hall⟩ | ⟨before, x, after, rfl, hbefore, hx, hidx⟩
      · refine .inl ⟨by simp [List.findIdx?_cons, ha, hnone], fun x hx => ?_⟩
        rcases List.mem_cons.mp hx with rfl | hx
        · exact ha
        · exact hall x hx
      · refine .inr ⟨a :: before, x, after, rfl, fun y hy => ?_, hx, by simp [List.findIdx?_cons, ha, hidx]⟩
        rcases List.mem_cons.mp hy with rfl | hy
        · exact ha
        · exact hbefore y hy

variable {found named}

theorem noneInFront_of_absent {l : List α} (h : ∀ x ∈ l, found x = false) : NoneInFront found named l := by
  rintro before x after rfl hx
  rw [h x (by simp)] at hx
  cases hx

/-- The first entry that is found is the one that is named, exactly if nothing stands in front of it. -/
theorem noneInFront_iff {before after : List α} {x : α} (hnamed : ∀ y, named y = true → found y = true)
    (hbefore : ∀ y ∈ before, found y = false) (hx : found x = true) :
    NoneInFront found named (before ++ x :: after) ↔ named x = true := by
  constructor
  · intro h
    by_contra hnot
    obtain ⟨y, hy, hyn⟩ := h before x after rfl hx (Bool.eq_false_iff.mpr hnot)
    have hyf := hbefore y hy
    rw [hnamed y hyn] at hyf
    cases hyf
  · intro hxn before' z after' heq hz hzn
    -- `z` is not the named `x`, and does not stand in front of it.
    rcases List.append_eq_append_iff.mp heq with ⟨rest, hb, hrest⟩ | ⟨rest, hb, hrest⟩
    · cases rest with
      | nil =>
        simp only [List.nil_append, List.cons.injEq] at hrest
        rw [hrest.1, hzn] at hxn
        cases hxn
      | cons w rest =>
        simp only [List.cons_append, List.cons.injEq] at hrest
        exact ⟨x, by rw [hb, hrest.1]; simp, hxn⟩
    · cases rest with
      | nil =>
        simp only [List.nil_append, List.cons.injEq] at hrest
        rw [← hrest.1, hzn] at hxn
        cases hxn
      | cons w rest =>
        simp only [List.cons_append, List.cons.injEq] at hrest
        have hzf := hbefore z (by rw [hb, hrest.1]; simp)
        rw [hz] at hzf
        cases hzf

/-- An entry that is named alone. -/
theorem filter_named {before after : List α} {x : α}
    (h : (before ++ x :: after).Pairwise fun a b => ¬ (named a = true ∧ named b = true)) (hx : named x = true) :
    (before ++ x :: after).filter (fun y => !named y) = before ++ after := by
  obtain ⟨-, hrest, hcross⟩ := List.pairwise_append.mp h
  have hbefore : before.filter (fun y => !named y) = before := by
    rw [List.filter_eq_self]
    intro y hy
    have := hcross y hy x List.mem_cons_self
    simpa [hx] using this
  have hafter : after.filter (fun y => !named y) = after := by
    rw [List.filter_eq_self]
    intro y hy
    have := (List.pairwise_cons.mp hrest).1 y hy
    simpa [hx] using this
  rw [List.filter_append, List.filter_cons_of_neg (by simp [hx]), hbefore, hafter]

theorem eq_of_named {before after : List α} {x y : α}
    (h : (before ++ x :: after).Pairwise fun a b => ¬ (named a = true ∧ named b = true)) (hx : named x = true)
    (hy : y ∈ before ++ x :: after) (hyn : named y = true) : y = x := by
  obtain ⟨-, hrest, hcross⟩ := List.pairwise_append.mp h
  rcases List.mem_append.mp hy with hy | hy
  · exact absurd ⟨hyn, hx⟩ (hcross y hy x List.mem_cons_self)
  · rcases List.mem_cons.mp hy with rfl | hy
    · rfl
    · exact absurd ⟨hx, hyn⟩ ((List.pairwise_cons.mp hrest).1 y hy)

end Lookup
