import Mathlib.Data.Finset.Lattice.Fold
import Mathlib.Order.Lattice.Nat

/-!
# Resources that are released once

A resource is live from its acquisition to its release, and only a live one can be released.
-/

namespace Live

variable {α : Type*} [DecidableEq α]

def release (live : Finset α) (a : α) : Option (Finset α) := if a ∈ live then some (live.erase a) else none

theorem release_of_mem (live : Finset α) (a : α) (h : a ∈ live) : release live a = some (live.erase a) :=
  if_pos h

/-- A number above all that are live is free. -/
theorem above_notMem (live : Finset Nat) : live.sup id + 1 ∉ live := by
  intro hmem
  have hle : id (live.sup id + 1) ≤ live.sup id := Finset.le_sup hmem
  exact Nat.not_succ_le_self _ hle

end Live
