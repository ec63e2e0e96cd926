import Mathlib.Data.Finset.Max
import Mathlib.Logic.Function.Basic
import Mathlib.Logic.Nontrivial.Basic

/-!
# Moves of values

Values that are copied from place to place, one after the other. Where each of them comes from does
not depend on the values.
-/

namespace Moves

section Run

variable {α β : Type}

def targets (l : List (α × α)) : List α := l.map Prod.fst

@[simp] theorem targets_append (l l' : List (α × α)) : targets (l ++ l') = targets l ++ targets l' := List.map_append

theorem targets_map {ι : Type} (l : List ι) (t s : ι → α) : targets (l.map fun i => (t i, s i)) = l.map t := by
  rw [targets, List.map_map]
  rfl

variable [DecidableEq α]

/-- Each move has the place that is written and the one that is read. -/
def run : List (α × α) → (α → β) → α → β
  | [], m => m
  | (t, s) :: l, m => run l (Function.update m t (m s))

@[simp] theorem run_nil (m : α → β) : run [] m = m := rfl

theorem run_append (l l' : List (α × α)) (m : α → β) : run (l ++ l') m = run l' (run l m) := by
  induction l generalizing m with
  | nil => rfl
  | cons move l ih => exact ih _

theorem run_concat (l : List (α × α)) (t s : α) (m : α → β) :
    run (l ++ [(t, s)]) m = Function.update (run l m) t (run l m s) := run_append l _ m

theorem run_comp {γ : Type} (l : List (α × α)) (m : α → β) (f : β → γ) : run l (f ∘ m) = f ∘ run l m := by
  induction l generalizing m with
  | nil => rfl
  | cons move l ih =>
    obtain ⟨t, s⟩ := move
    rw [run, run, ← ih, Function.comp_update]
    rfl

/-- Every run reads its values from the memory before. -/
theorem run_eq_comp (l : List (α × α)) (m : α → β) : run l m = m ∘ run l id := run_comp l id m

theorem run_of_notMem (l : List (α × α)) (m : α → β) (a : α) (h : a ∉ targets l) : run l m a = m a := by
  induction l generalizing m with
  | nil => rfl
  | cons move l ih =>
    obtain ⟨t, s⟩ := move
    rw [targets, List.map_cons, List.mem_cons, not_or] at h
    rw [run, ih _ h.2, Function.update_of_ne h.1]

/-- Nothing is read that is written, and the moves to one place agree. -/
theorem run_apart (l : List (α × α)) (m : α → β) (hread : ∀ move ∈ l, move.2 ∉ targets l)
    (hone : ∀ move ∈ l, ∀ move' ∈ l, move.1 = move'.1 → move.2 = move'.2) (t s : α) (h : (t, s) ∈ l) :
    run l m t = m s := by
  induction l using List.reverseRecOn with
  | nil => cases h
  | append_singleton l move ih =>
    obtain ⟨t', s'⟩ := move
    have hlast : (t', s') ∈ l ++ [(t', s')] := List.mem_append_right _ List.mem_cons_self
    have hs' : run l m s' = m s' := by
      refine run_of_notMem l m s' fun hs' => hread _ hlast ?_
      rw [targets_append]
      exact List.mem_append_left _ hs'
    rw [run_concat, hs']
    by_cases ht : t = t'
    · have hs : s = s' := hone _ h _ hlast ht
      rw [hs, ht, Function.update_self]
    · rw [Function.update_of_ne ht]
      refine ih (fun move hmove hmem => ?_) (fun move hmove move' hmove' => ?_) ?_
      · refine hread move (List.mem_append_left _ hmove) ?_
        rw [targets_append]
        exact List.mem_append_left _ hmem
      · exact hone move (List.mem_append_left _ hmove) move' (List.mem_append_left _ hmove')
      · refine (List.mem_append.mp h).resolve_right fun h => ht ?_
        exact (Prod.mk.inj (List.mem_singleton.mp h)).1

/-- Which place a run leaves the value of, told by runs over two values. -/
theorem run_comp_iff [Nontrivial β] (l : List (α × α)) (e : α → α) :
    (∀ m : α → β, run l m = m ∘ e) ↔ run l id = e := by
  constructor
  · intro h
    funext a
    by_contra hne
    obtain ⟨x, y, hxy⟩ := exists_pair_ne β
    have hm := congrFun (h (Function.update (fun _ => y) (e a) x)) a
    rw [run_eq_comp, Function.comp_apply, Function.comp_apply, Function.update_self, Function.update_of_ne hne] at hm
    exact hxy hm.symm
  · rintro rfl m
    exact run_eq_comp l m

/-- Each place is written at most once: then what a move reads is what was there before, or what an earlier
move has left for good. -/
theorem run_id_iff (l : List (α × α)) (e : α → α) (hl : (targets l).Nodup) :
    run l id = e ↔
      (∀ p t s q, l = p ++ (t, s) :: q → e t = if s ∈ targets p then e s else s) ∧ ∀ a ∉ targets l, e a = a := by
  constructor
  · rintro rfl
    refine ⟨?_, fun a ha => run_of_notMem l id a ha⟩
    rintro p t s q rfl
    rw [targets_append] at hl
    have hlast (a : α) (ha : a ∈ targets p) : run (p ++ (t, s) :: q) id a = run p id a := by
      rw [run_append]
      exact run_of_notMem _ _ a (List.disjoint_of_nodup_append hl ha)
    have ht : t ∉ targets q := (List.nodup_cons.mp (List.nodup_append.mp hl).2.1).1
    have hread : run (p ++ (t, s) :: q) id t = run p id s := by
      rw [run_append, run, run_of_notMem q _ t ht, Function.update_self]
    rw [hread]
    split
    · rename_i hs
      exact (hlast s hs).symm
    · rename_i hs
      exact run_of_notMem p id s hs
  · rintro ⟨hmoves, hkept⟩
    have hpart (p q : List (α × α)) (hpq : l = p ++ q) :
        ∀ a, run p id a = if a ∈ targets p then e a else a := by
      induction p using List.reverseRecOn generalizing q with
      | nil => exact fun a => rfl
      | append_singleton p move ih =>
        obtain ⟨t, s⟩ := move
        rw [List.append_assoc] at hpq
        have ih := ih _ hpq
        intro a
        rw [run_concat, targets_append]
        by_cases hat : a = t
        · subst hat
          rw [Function.update_self, ih s, ← hmoves p a s q hpq]
          exact (if_pos (List.mem_append_right _ List.mem_cons_self)).symm
        · rw [Function.update_of_ne hat, ih a]
          refine if_congr ?_ rfl rfl
          rw [List.mem_append, or_iff_left]
          exact fun h => hat (List.mem_singleton.mp h)
    funext a
    rw [hpart l [] (List.append_nil l).symm a]
    split
    · rfl
    · rename_i ha
      exact (hkept a ha).symm

end Run

/-! ## Places that were meant -/

/-- Places that are written too low, if they are written at all, do not cover the ones that were meant. -/
theorem unshifted {ι : Type} [DecidableEq ι] (I : Finset ι) (place shift : ι → Nat) (performed : ι → Prop)
    (hinj : Set.InjOn place I) (hcover : ∀ i ∈ I, ∃ j ∈ I, performed j ∧ place j = place i + shift j) :
    ∀ i ∈ I, performed i ∧ shift i = 0 := by
  classical
  by_contra hnot
  rw [not_forall] at hnot
  obtain ⟨i, hnot⟩ := hnot
  rw [Classical.not_imp] at hnot
  -- the highest place that is not written as meant
  obtain ⟨top, htop, hmax⟩ := Finset.exists_max_image (I.filter fun i => ¬ (performed i ∧ shift i = 0)) place
    ⟨i, Finset.mem_filter.mpr hnot⟩
  rw [Finset.mem_filter] at htop
  obtain ⟨j, hj, hperformed, hplace⟩ := hcover top htop.1
  by_cases hshift : shift j = 0
  · rw [hshift, Nat.add_zero] at hplace
    obtain rfl := hinj hj htop.1 hplace
    exact htop.2 ⟨hperformed, hshift⟩
  · have hle := hmax j (Finset.mem_filter.mpr ⟨hj, fun h => hshift h.2⟩)
    omega

end Moves
