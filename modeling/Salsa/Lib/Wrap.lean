import Mathlib.Data.Int.ModEq
import Mathlib.Tactic.Common

/-!
# Words that are corrected once

Positions on a ring that is shorter than half of the words. The difference of two positions is brought back to the
ring by one addition or subtraction, without a division.
-/

namespace Wrap

variable {w : Nat}

/-- A signed difference, corrected once. -/
def corrected (period d : BitVec w) : BitVec w :=
  if d.slt 0#w then d + period else if period ≤ d then d - period else d

/-- A sum of positions, corrected once. -/
def reduced (period x : BitVec w) : BitVec w := if period ≤ x then x - period else x

theorem emod_of_neg (z n : ℤ) (hlow : -n ≤ z) (hneg : z < 0) : z % n = z + n := by
  rw [← Int.add_emod_right, Int.emod_eq_of_lt (by omega) (by omega)]

theorem emod_of_over (z n : ℤ) (hover : n ≤ z) (hhigh : z < 2 * n) : z % n = z - n := by
  rw [← Int.sub_emod_right, Int.emod_eq_of_lt (by omega) (by omega)]

/-- A difference of less than one period below the ring, or above it, is a position after the correction. -/
theorem corrected_spec (period d : BitVec w) (hlow : -(period.toNat : ℤ) ≤ d.toInt)
    (hhigh : d.toInt < 2 * period.toNat) : ((corrected period d).toNat : ℤ) = d.toInt % period.toNat := by
  have hd := d.isLt
  unfold corrected
  rw [BitVec.slt_eq_decide, BitVec.toInt_zero]
  by_cases hneg : d.toInt < 0
  · have hbelow : d.toInt = (d.toNat : ℤ) - 2 ^ w := by
      rw [BitVec.toInt_eq_toNat_cond] at hneg ⊢
      split at hneg
      · omega
      · rename_i hlt
        rw [if_neg hlt]
        norm_cast
    rw [if_pos (decide_eq_true hneg), emod_of_neg _ _ hlow hneg, BitVec.toNat_add]
    have hpow : ((2 ^ w : Nat) : ℤ) = 2 ^ w := by norm_cast
    have hsum : d.toNat + period.toNat = (d.toInt + period.toNat).toNat + 2 ^ w := by omega
    rw [hsum, Nat.add_mod_right, Nat.mod_eq_of_lt (by omega)]
    omega
  · have habove : d.toInt = (d.toNat : ℤ) := by
      rw [BitVec.toInt_eq_toNat_cond] at hneg ⊢
      split at hneg
      · rename_i hlt
        rw [if_pos hlt]
      · omega
    rw [if_neg (by simpa using hneg)]
    by_cases hover : period ≤ d
    · rw [if_pos hover, BitVec.toNat_sub_of_le hover]
      have hle : period.toNat ≤ d.toNat := hover
      rw [habove] at hhigh ⊢
      rw [emod_of_over _ _ (by omega) hhigh]
      omega
    · have hlt : d.toNat < period.toNat := not_le.mp hover
      rw [if_neg hover, habove, Int.emod_eq_of_lt (by omega) (by omega)]

theorem reduced_spec (period x : BitVec w) (hhigh : x.toNat < 2 * period.toNat) :
    (reduced period x).toNat = x.toNat % period.toNat := by
  unfold reduced
  by_cases hover : period ≤ x
  · have hle : period.toNat ≤ x.toNat := hover
    rw [if_pos hover, BitVec.toNat_sub_of_le hover, Nat.mod_eq_sub_mod hle, Nat.mod_eq_of_lt (by omega)]
  · have hlt : x.toNat < period.toNat := not_le.mp hover
    rw [if_neg hover, Nat.mod_eq_of_lt hlt]

end Wrap
