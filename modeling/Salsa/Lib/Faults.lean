import Salsa.Lib.CInt

/-!
# Computations without certain faults

One rule for each construct, so that a program is gone through from the top.
-/

namespace CInt

/-- The computation does not end with one of the faults `bad`. -/
def Avoids {α : Type} (bad : Fault → Prop) (r : C α) : Prop := ∀ fault, bad fault → r ≠ .error fault

section Rules

variable {bad : Fault → Prop}

theorem avoids_ok {α : Type} (a : α) : Avoids bad (.ok a : C α) := by
  rintro fault - h
  cases h

theorem avoids_pure {α : Type} (a : α) : Avoids bad (pure a : C α) := avoids_ok a

theorem avoids_error {α : Type} (fault : Fault) (h : ¬ bad fault) : Avoids bad (.error fault : C α) := by
  rintro fault hbad heq
  cases heq
  exact h hbad

theorem Avoids.bind {α β : Type} {r : C α} {f : α → C β} (hr : Avoids bad r) (hf : ∀ a, r = .ok a → Avoids bad (f a)) :
    Avoids bad (r >>= f) := by
  cases r with
  | error fault =>
    rintro fault' hbad heq
    cases heq
    exact hr _ hbad rfl
  | ok a => exact hf a rfl

theorem avoids_read (m : Words) (i : Nat) (h : bad .read → i < m.size) : Avoids bad (m.read i) := by
  by_cases hi : i < m.size
  · rw [m.read_ok i hi]
    exact avoids_ok _
  · rw [m.read_error i hi]
    exact avoids_error _ fun hbad => hi (h hbad)

theorem Avoids.read {β : Type} {m : Words} {i : Nat} {f : BitVec 32 → C β} (hbad : bad .read)
    (h : Avoids bad (m.read i >>= f)) : i < m.size ∧ Avoids bad (f (m.word i)) := by
  by_cases hi : i < m.size
  · rw [m.read_ok i hi] at h
    exact ⟨hi, h⟩
  · rw [m.read_error i hi] at h
    exact absurd rfl (h .read hbad)

theorem avoids_long (h : ¬ bad .overflow) (x : Int) : Avoids bad (long x) := by
  rcases long_cases x with hx | hx <;> rw [hx]
  · exact avoids_ok _
  · exact avoids_error _ h

theorem avoids_int (h : ¬ bad .overflow) (x : Int) : Avoids bad (int x) := by
  unfold int
  split_ifs
  · exact avoids_ok _
  · exact avoids_error _ h

theorem avoids_divide (h : ¬ bad .overflow) (h0 : ¬ bad .divide) (x y : Int) : Avoids bad (divide x y) := by
  unfold divide
  split_ifs
  · exact avoids_error _ h0
  · exact avoids_long h _

end Rules

end CInt
