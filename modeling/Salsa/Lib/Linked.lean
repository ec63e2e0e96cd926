import Mathlib.Data.List.Basic
import Mathlib.Data.List.Nodup
import Mathlib.Logic.Function.Basic

/-!
# Doubly linked lists in memory

A link is read as a pointer, or not at all where nothing is allocated. The contents are the addresses in their order.
The two directions are one another's mirror.
-/

namespace Linked

variable {κ : Type*} {prev next prev' next' : κ → Option (Option κ)} {before after : Option κ}

/-- The addresses are linked both ways, and the first and the last of them to what is before and after. -/
def Segment (prev next : κ → Option (Option κ)) : Option κ → List κ → Option κ → Prop
  | _, [], _ => True
  | before, x :: l, after =>
    prev x = some before ∧ next x = some (l.head?.or after) ∧ Segment prev next (some x) l after

/-- Follows a link up to a null pointer, with fuel. -/
def walk (next : κ → Option (Option κ)) : Nat → Option κ → Option (List κ)
  | _, none => some []
  | 0, some _ => none
  | n + 1, some x => (next x).bind fun p => (walk next n p).map (x :: ·)

theorem segment_append (a b : List κ) :
    Segment prev next before (a ++ b) after ↔
      Segment prev next before a (b.head?.or after) ∧ Segment prev next (a.getLast?.or before) b after := by
  induction a generalizing before with
  | nil => simp [Segment]
  | cons x a ih =>
    have hnext : (a ++ b).head?.or after = a.head?.or (b.head?.or after) := by
      rw [List.head?_append, Option.or_assoc]
    have hprev : (x :: a).getLast?.or before = a.getLast?.or (some x) := by
      rw [List.getLast?_cons]
      cases a.getLast? <;> rfl
    rw [List.cons_append, Segment, Segment, hnext, hprev, ih, and_assoc, and_assoc]

theorem segment_reverse (l : List κ) :
    Segment prev next before l after ↔ Segment next prev after l.reverse before := by
  induction l generalizing before with
  | nil => simp [Segment]
  | cons x l ih =>
    rw [List.reverse_cons, segment_append, Segment, ih]
    simp only [Segment, List.head?_cons, List.head?_nil, Option.some_or, Option.none_or, List.getLast?_reverse,
      and_true]
    tauto

/-- Only the links of the segment count. -/
theorem Segment.congr {l : List κ} (h : Segment prev next before l after) (hprev : ∀ x ∈ l, prev' x = prev x)
    (hnext : ∀ x ∈ l, next' x = next x) : Segment prev' next' before l after := by
  induction l generalizing before with
  | nil => trivial
  | cons x l ih =>
    obtain ⟨hp, hn, hrest⟩ := h
    refine ⟨(hprev x List.mem_cons_self).trans hp, (hnext x List.mem_cons_self).trans hn, ih hrest ?_ ?_⟩
    · exact fun y hy => hprev y (List.mem_cons_of_mem x hy)
    · exact fun y hy => hnext y (List.mem_cons_of_mem x hy)

theorem Segment.isSome {l : List κ} (h : Segment prev next before l after) (x : κ) (hx : x ∈ l) : (next x).isSome := by
  induction l generalizing before with
  | nil => cases hx
  | cons y l ih =>
    obtain ⟨-, hn, hrest⟩ := h
    rcases List.mem_cons.mp hx with rfl | hx
    · rw [hn]
      rfl
    · exact ih hrest hx

theorem Segment.walk_eq {l : List κ} (h : Segment prev next before l none) (n : Nat) (hn : l.length ≤ n) :
    walk next n l.head? = some l := by
  induction l generalizing before n with
  | nil => cases n <;> rfl
  | cons x l ih =>
    obtain ⟨-, hnext, hrest⟩ := h
    cases n with
    | zero => exact absurd hn (Nat.not_succ_le_zero _)
    | succ n =>
      rw [List.head?_cons, walk, hnext, Option.or_none, Option.bind_some, ih hrest n (Nat.le_of_succ_le_succ hn)]
      rfl

/-! ## Links that are set -/

section Set

variable [DecidableEq κ] {after' before' : Option κ}

/-- The last of the addresses is linked to something else. -/
theorem Segment.set_after {l : List κ} (h : Segment prev next before l after) (hl : l.Nodup)
    (hprev : ∀ x ∈ l, prev' x = prev x)
    (hnext : ∀ x ∈ l, next' x = if l.getLast? = some x then some after' else next x) :
    Segment prev' next' before l after' := by
  induction l generalizing before with
  | nil => trivial
  | cons x l ih =>
    obtain ⟨hp, hn, hrest⟩ := h
    obtain ⟨hx, hl⟩ := List.nodup_cons.mp hl
    have hx' := hnext x List.mem_cons_self
    cases l with
    | nil => exact ⟨(hprev x List.mem_cons_self).trans hp, by simpa using hx', trivial⟩
    | cons y l =>
      have hlast : (x :: y :: l).getLast? = (y :: l).getLast? := List.getLast?_cons_cons
      have hne : (y :: l).getLast? ≠ some x := fun heq => hx (List.mem_of_getLast? heq)
      rw [hlast, if_neg hne] at hx'
      refine ⟨(hprev x List.mem_cons_self).trans hp, hx'.trans hn, ih hrest hl ?_ ?_⟩
      · exact fun z hz => hprev z (List.mem_cons_of_mem x hz)
      · intro z hz
        rw [hnext z (List.mem_cons_of_mem x hz), hlast]

/-- The first of the addresses is linked back to something else. -/
theorem Segment.set_before {l : List κ} (h : Segment prev next before l after) (hl : l.Nodup)
    (hprev : ∀ x ∈ l, prev' x = if l.head? = some x then some before' else prev x)
    (hnext : ∀ x ∈ l, next' x = next x) : Segment prev' next' before' l after := by
  rw [segment_reverse] at h ⊢
  apply h.set_after (List.nodup_reverse.mpr hl)
  · exact fun x hx => hnext x (List.mem_reverse.mp hx)
  · intro x hx
    rw [List.getLast?_reverse]
    exact hprev x (List.mem_reverse.mp hx)

/-- An address is linked behind the others. -/
theorem Segment.push {l : List κ} {x : κ} (h : Segment prev next before l after) (hl : (l ++ [x]).Nodup)
    (hprev : ∀ y ∈ l, prev' y = prev y)
    (hnext : ∀ y ∈ l, next' y = if l.getLast? = some y then some (some x) else next y)
    (hprevx : prev' x = some (l.getLast?.or before)) (hnextx : next' x = some after) :
    Segment prev' next' before (l ++ [x]) after := by
  rw [segment_append]
  exact ⟨h.set_after (List.nodup_append.mp hl).1 hprev hnext, hprevx, hnextx, trivial⟩

/-- What is before and after an address is linked to each other. -/
theorem Segment.unlink {a b : List κ} {x : κ} (h : Segment prev next before (a ++ x :: b) after)
    (hl : (a ++ x :: b).Nodup)
    (hprev : ∀ y ∈ a ++ b, prev' y = if b.head? = some y then some (a.getLast?.or before) else prev y)
    (hnext : ∀ y ∈ a ++ b, next' y = if a.getLast? = some y then some (b.head?.or after) else next y) :
    Segment prev' next' before (a ++ b) after := by
  obtain ⟨ha, -, -, hb⟩ := (segment_append a (x :: b)).mp h
  obtain ⟨hla, hlb, hdisjoint⟩ := List.nodup_append.mp hl
  have hlb := (List.nodup_cons.mp hlb).2
  rw [segment_append]
  constructor
  · apply ha.set_after hla
    · intro y hy
      rw [hprev y (List.mem_append_left b hy), if_neg]
      intro heq
      exact hdisjoint y hy y (List.mem_cons_of_mem x (List.mem_of_head? heq)) rfl
    · exact fun y hy => hnext y (List.mem_append_left b hy)
  · apply hb.set_before hlb
    · exact fun y hy => hprev y (List.mem_append_right a hy)
    · intro y hy
      rw [hnext y (List.mem_append_right a hy), if_neg]
      intro heq
      exact hdisjoint y (List.mem_of_getLast? heq) y (List.mem_cons_of_mem x hy) rfl

end Set

end Linked
