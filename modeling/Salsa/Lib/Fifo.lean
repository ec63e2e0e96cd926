import Mathlib.Data.List.Basic
import Mathlib.Data.List.Infix
import Mathlib.Algebra.Group.Nat.Defs

/-!
# Queues in a ring of slots

Elements are counted by totals that never wrap. The element with the total `t` has the slot `t % n`.
-/

namespace Fifo

variable {β : Type*} {n : Nat}

/-- The elements in the slots of `k` totals from `a` on. -/
def window (n : Nat) (slot : Nat → β) (a k : Nat) : List β := (List.range k).map fun i => slot ((a + i) % n)

@[simp] theorem window_zero (slot : Nat → β) (a : Nat) : window n slot a 0 = [] := rfl

@[simp] theorem length_window (slot : Nat → β) (a k : Nat) : (window n slot a k).length = k := by
  simp [window]

@[simp] theorem getElem_window (slot : Nat → β) (a k i : Nat) (h : i < (window n slot a k).length) :
    (window n slot a k)[i] = slot ((a + i) % n) := by
  simp [window]

/-- Totals less than a lap apart have slots of their own. -/
theorem slot_ne (a i j : Nat) (hi : a ≤ i) (hij : i < j) (hj : j < a + n) : i % n ≠ j % n := by
  intro heq
  have hdvd : n ∣ j - i := Nat.dvd_of_mod_eq_zero (Nat.sub_mod_eq_zero_of_mod_eq heq.symm)
  have hle := Nat.le_of_dvd (by omega) hdvd
  omega

/-- The slots of a part that does not lead across the end. -/
theorem slot_of_room (a k i : Nat) (hroom : a % n + k ≤ n) (hi : i < k) : (a + i) % n = a % n + i := by
  rw [← Nat.mod_add_mod, Nat.mod_eq_of_lt (by omega)]

/-- The elements of the last lap before a part are in none of its slots. -/
theorem slot_outside (a k t : Nat) (hroom : a % n + k ≤ n) (ht : t < a) (hlap : a + k ≤ t + n) :
    t % n < a % n ∨ a % n + k ≤ t % n := by
  by_contra hinside
  rw [not_or, Nat.not_lt, Nat.not_le] at hinside
  obtain ⟨hlow, hhigh⟩ := hinside
  have hslot := slot_of_room a k (t % n - a % n) hroom (by omega)
  apply slot_ne (n := n) t t (a + (t % n - a % n)) le_rfl (by omega) (by omega)
  omega

/-! ## What the slots hold -/

/-- The slots hold the elements of `l` from the total `low` on. -/
def Holds (n : Nat) (slot : Nat → β) (l : List β) (low : Nat) : Prop :=
  ∀ t (h : t < l.length), low ≤ t → slot (t % n) = l[t]

theorem Holds.nil (slot : Nat → β) (low : Nat) : Holds n slot [] low := fun _ h => absurd h (Nat.not_lt_zero _)

theorem Holds.mono {slot : Nat → β} {l : List β} {low low' : Nat} (h : Holds n slot l low) (hle : low ≤ low') :
    Holds n slot l low' := fun t ht hlow => h t ht (hle.trans hlow)

theorem Holds.congr {slot slot' : Nat → β} {l : List β} {low : Nat} (h : Holds n slot l low)
    (hkept : ∀ t < l.length, low ≤ t → slot' (t % n) = slot (t % n)) : Holds n slot' l low := by
  intro t ht hlow
  rw [hkept t ht hlow]
  exact h t ht hlow

theorem Holds.take {slot : Nat → β} {l : List β} {low : Nat} (h : Holds n slot l low) (k : Nat) :
    Holds n slot (l.take k) low := by
  intro t ht hlow
  rw [List.length_take] at ht
  rw [List.getElem_take]
  exact h t (by omega) hlow

/-- What is put in follows what is there, in slots of its own. -/
theorem Holds.append {slot slot' : Nat → β} {l xs : List β} {low : Nat} (h : Holds n slot l low)
    (hkept : ∀ t < l.length, low ≤ t → slot' (t % n) = slot (t % n))
    (hput : ∀ i (hi : i < xs.length), slot' ((l.length + i) % n) = xs[i]) : Holds n slot' (l ++ xs) low := by
  intro t ht hlow
  by_cases hold : t < l.length
  · rw [List.getElem_append_left hold, hkept t hold hlow]
    exact h t hold hlow
  · rw [List.length_append] at ht
    rw [List.getElem_append_right (by omega), ← hput (t - l.length) (by omega)]
    congr 2
    omega

theorem Holds.window_eq {slot : Nat → β} {l : List β} {low : Nat} (h : Holds n slot l low) (a k : Nat)
    (hlow : low ≤ a) (hk : a + k ≤ l.length) : window n slot a k = (l.drop a).take k := by
  apply List.ext_getElem
  · simp
    omega
  · intro i hi _
    rw [length_window] at hi
    rw [getElem_window, List.getElem_take, List.getElem_drop]
    exact h (a + i) (by omega) (by omega)

/-- What was taken out is the front of what was put in: the next elements follow it. -/
theorem Holds.extend_taken {slot : Nat → β} {l taken : List β} {low : Nat} (h : Holds n slot l low)
    (htaken : taken <+: l) (k : Nat) (hlow : low ≤ taken.length) (hk : taken.length + k ≤ l.length) :
    taken ++ window n slot taken.length k <+: l := by
  rw [h.window_eq _ _ hlow hk]
  obtain ⟨rest, rfl⟩ := htaken
  rw [List.drop_left, List.prefix_append_right_inj]
  exact List.take_prefix k rest

/-- Nothing is lost and nothing comes twice. -/
theorem Holds.taken_append_window {slot : Nat → β} {l taken : List β} (h : Holds n slot l taken.length)
    (htaken : taken <+: l) : taken ++ window n slot taken.length (l.length - taken.length) = l := by
  have hle := htaken.length_le
  apply (h.extend_taken htaken _ le_rfl (by omega)).eq_of_length
  simp
  omega

end Fifo
