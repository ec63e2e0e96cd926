import Mathlib.Data.List.Infix

/-!
# Words with a mark in front

A word that starts with a letter which it does not have again. It never lies across the border of a
text and of another one that starts with the same letter.
-/

namespace Marked

variable {α : Type} {mark : α} {word s t : List α}

theorem prefix_append (hmark : mark ∉ word) (hs : s ≠ []) (h : mark :: word <+: s ++ mark :: t) :
    mark :: word <+: s := by
  rcases List.prefix_or_prefix_of_prefix h (List.prefix_append s _) with hword | ⟨rest, hrest⟩
  · exact hword
  · rw [← hrest, List.prefix_append_right_inj] at h
    cases rest with
    | nil =>
      rw [List.append_nil] at hrest
      exact hrest ▸ List.prefix_refl _
    | cons c rest =>
      obtain ⟨rfl, -⟩ := List.cons_prefix_cons.mp h
      obtain ⟨first, s, rfl⟩ := List.exists_cons_of_ne_nil hs
      obtain ⟨-, rfl⟩ := List.cons.inj hrest
      exact absurd (List.mem_append_right _ List.mem_cons_self) hmark

theorem prefix_append_iff (hmark : mark ∉ word) (hs : s ≠ []) :
    mark :: word <+: s ++ mark :: t ↔ mark :: word <+: s :=
  ⟨prefix_append hmark hs, fun h => h.trans (List.prefix_append s _)⟩

theorem infix_append_iff (hmark : mark ∉ word) :
    mark :: word <:+: s ++ mark :: t ↔ mark :: word <:+: s ∨ mark :: word <:+: mark :: t := by
  induction s with
  | nil => simp
  | cons c s ih =>
    have hcons : mark :: word <:+: c :: s ↔ mark :: word <+: c :: s ∨ mark :: word <:+: s := List.infix_cons_iff
    rw [List.cons_append, List.infix_cons_iff, hcons, ih, ← List.cons_append,
      prefix_append_iff hmark (List.cons_ne_nil c s), or_assoc]

end Marked
