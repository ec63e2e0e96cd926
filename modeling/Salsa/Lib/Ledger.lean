import Mathlib.Data.Set.Insert
import Mathlib.Logic.Function.Basic

/-!
# Who has what

Resources of one kind, of which a holder has one at most. What is live was there before, or a holder has it, or it was
lost; never two of these.
-/

namespace Ledger

variable {H R : Type*}

structure Balanced (base lost live : Set R) (held : H → Option R) : Prop where
  live : ∀ r, r ∈ live ↔ r ∈ base ∨ r ∈ lost ∨ ∃ h, held h = some r
  once : ∀ h h' r, held h = some r → held h' = some r → h = h'
  held : ∀ h r, held h = some r → r ∉ base ∧ r ∉ lost
  lost : ∀ r, r ∈ lost → r ∉ base

variable {base lost live : Set R} {held : H → Option R}

theorem balanced_start (h : ∀ h, held h = none) : Balanced base ∅ base held where
  live r := by simp [h]
  once x _ _ hx := by simp [h x] at hx
  held x _ hx := by simp [h x] at hx
  lost _ hr := absurd hr (Set.notMem_empty _)

theorem Balanced.mem (hb : Balanced base lost live held) {h : H} {r : R} (hr : held h = some r) : r ∈ live :=
  (hb.live r).mpr (.inr (.inr ⟨h, hr⟩))

variable [DecidableEq H]

/-- Something new for one that had nothing. -/
theorem Balanced.acquire (hb : Balanced base lost live held) (h : H) (r : R) (hnone : held h = none) (hr : r ∉ live) :
    Balanced base lost (insert r live) (Function.update held h (some r)) := by
  have hnew : ∀ x, held x ≠ some r := fun x hx => hr (hb.mem hx)
  have hother : ∀ x s, Function.update held h (some r) x = some s ↔ x = h ∧ s = r ∨ held x = some s := by
    intro x s
    rcases eq_or_ne x h with rfl | hx
    · simp [hnone, eq_comm]
    · simp [hx]
  constructor
  · intro s
    simp only [hother, Set.mem_insert_iff, hb.live s, exists_or, exists_eq_left]
    exact or_left_comm.trans (or_congr_right or_left_comm)
  · intro x x' s hx hx'
    rw [hother] at hx hx'
    rcases hx with ⟨rfl, rfl⟩ | hx
    · exact (hx'.resolve_right (hnew x')).1.symm
    · rcases hx' with ⟨rfl, rfl⟩ | hx'
      · exact absurd hx (hnew x)
      · exact hb.once x x' s hx hx'
  · intro x s hx
    rcases (hother x s).mp hx with ⟨rfl, rfl⟩ | hx
    · exact ⟨fun hs => hr ((hb.live s).mpr (.inl hs)), fun hs => hr ((hb.live s).mpr (.inr (.inl hs)))⟩
    · exact hb.held x s hx
  · exact hb.lost

theorem held_erased (hb : Balanced base lost live held) (h : H) (r : R) (hr : held h = some r) (x : H) (s : R) :
    Function.update held h none x = some s ↔ s ≠ r ∧ held x = some s := by
  rcases eq_or_ne x h with rfl | hx
  · simp only [Function.update_self, hr, Option.some.injEq]
    constructor
    · intro hs
      cases hs
    · rintro ⟨hne, rfl⟩
      exact absurd rfl hne
  · rw [Function.update_of_ne hx]
    refine ⟨fun hs => ⟨?_, hs⟩, And.right⟩
    rintro rfl
    exact hx (hb.once x h s hs hr)

theorem Balanced.release (hb : Balanced base lost live held) (h : H) (r : R) (hr : held h = some r) :
    Balanced base lost (live \ {r}) (Function.update held h none) := by
  have hbase := hb.held h r hr
  constructor
  · intro s
    simp only [held_erased hb h r hr, Set.mem_sdiff, Set.mem_singleton_iff, hb.live s]
    constructor
    · rintro ⟨hs | hs | ⟨x, hx⟩, hne⟩
      · exact .inl hs
      · exact .inr (.inl hs)
      · exact .inr (.inr ⟨x, hne, hx⟩)
    · rintro (hs | hs | ⟨x, hne, hx⟩)
      · exact ⟨.inl hs, fun heq => hbase.1 (heq ▸ hs)⟩
      · exact ⟨.inr (.inl hs), fun heq => hbase.2 (heq ▸ hs)⟩
      · exact ⟨.inr (.inr ⟨x, hx⟩), hne⟩
  · intro x x' s hx hx'
    exact hb.once x x' s ((held_erased hb h r hr x s).mp hx).2 ((held_erased hb h r hr x' s).mp hx').2
  · exact fun x s hx => hb.held x s ((held_erased hb h r hr x s).mp hx).2
  · exact hb.lost

/-- The holder goes and what it had stays. -/
theorem Balanced.lose (hb : Balanced base lost live held) (h : H) (r : R) (hr : held h = some r) :
    Balanced base (insert r lost) live (Function.update held h none) := by
  constructor
  · intro s
    simp only [held_erased hb h r hr, Set.mem_insert_iff, hb.live s]
    constructor
    · rintro (hs | hs | ⟨x, hx⟩)
      · exact .inl hs
      · exact .inr (.inl (.inr hs))
      · rcases eq_or_ne s r with hs | hs
        · exact .inr (.inl (.inl hs))
        · exact .inr (.inr ⟨x, hs, hx⟩)
    · rintro (hs | (rfl | hs) | ⟨x, -, hx⟩)
      · exact .inl hs
      · exact .inr (.inr ⟨h, hr⟩)
      · exact .inr (.inl hs)
      · exact .inr (.inr ⟨x, hx⟩)
  · intro x x' s hx hx'
    exact hb.once x x' s ((held_erased hb h r hr x s).mp hx).2 ((held_erased hb h r hr x' s).mp hx').2
  · intro x s hx
    obtain ⟨hne, hx⟩ := (held_erased hb h r hr x s).mp hx
    refine ⟨(hb.held x s hx).1, fun hs => ?_⟩
    exact hs.elim hne (hb.held x s hx).2
  · rintro s (rfl | hs)
    · exact (hb.held h s hr).1
    · exact hb.lost s hs

end Ledger
