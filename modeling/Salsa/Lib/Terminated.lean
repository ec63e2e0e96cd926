import Mathlib.Data.List.TakeWhile

/-!
# Terminated items

Items one behind the other, each with a terminator at its end, and how they are found again.
-/

namespace Terminated

variable {α : Type*} (stop : α)

def join (items : List (List α)) : List α := items.flatMap fun item => item ++ [stop]

@[simp] theorem join_nil : join stop ([] : List (List α)) = [] := rfl

@[simp] theorem join_cons (a : List α) (items : List (List α)) :
    join stop (a :: items) = a ++ stop :: join stop items := by
  simp [join]

theorem length_le_join (items : List (List α)) : items.length ≤ (join stop items).length := by
  induction items with
  | nil => exact Nat.le_refl 0
  | cons a items ih =>
    rw [join_cons, List.length_append, List.length_cons, List.length_cons]
    omega

/-! ## Finding an item -/

variable [DecidableEq α]

/-- The item number `i`, found by going over the ones before it. -/
def item : Nat → List α → List α
  | 0, text => text.takeWhile fun c => c ≠ stop
  | i + 1, text => item i ((text.dropWhile fun c => c ≠ stop).drop 1)

/-- An item without a terminator in it ends at the first one. -/
theorem split_first (a rest : List α) (h : stop ∉ a) :
    (a ++ stop :: rest).takeWhile (fun c => c ≠ stop) = a ∧
      (a ++ stop :: rest).dropWhile (fun c => c ≠ stop) = stop :: rest := by
  have hall : ∀ c ∈ a, decide (c ≠ stop) = true := by
    intro c hc
    rw [decide_eq_true_iff]
    rintro rfl
    exact h hc
  constructor
  · rw [List.takeWhile_append_of_pos hall, List.takeWhile_cons_of_neg (by simp), List.append_nil]
  · rw [List.dropWhile_append_of_pos hall, List.dropWhile_cons_of_neg (by simp)]

/-- Each item is found under its number, whatever follows the last one. -/
theorem item_join (items : List (List α)) (rest : List α) (h : ∀ a ∈ items, stop ∉ a) (i : Nat)
    (hi : i < items.length) : item stop i (join stop items ++ rest) = items[i] := by
  induction items generalizing i with
  | nil => exact absurd hi (Nat.not_lt_zero i)
  | cons a items ih =>
    obtain ⟨htake, hdrop⟩ := split_first stop a (join stop items ++ rest) (h a List.mem_cons_self)
    rw [join_cons, List.append_assoc, List.cons_append]
    cases i with
    | zero => exact htake
    | succ i =>
      rw [item, hdrop]
      exact ih (fun b hb => h b (List.mem_cons_of_mem a hb)) i (Nat.lt_of_succ_lt_succ hi)

end Terminated
