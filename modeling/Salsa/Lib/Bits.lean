import Mathlib.Order.Bounds.Basic
import Mathlib.Data.Nat.Basic
import Mathlib.Algebra.Group.Nat.Defs

/-!
# Words as sets of bits

The lowest and the highest bit of a word, and when it has only one.
-/

namespace Bits

variable {w : Nat}

/-- The positions of the bits that are set. -/
def ones (v : BitVec w) : Set Nat := {b | v.getLsbD b = true}

@[simp] theorem mem_ones (v : BitVec w) (b : Nat) : b ∈ ones v ↔ v.getLsbD b = true := Iff.rfl

theorem lt_of_mem_ones (v : BitVec w) (b : Nat) (h : b ∈ ones v) : b < w := BitVec.lt_of_getLsbD h

theorem testBit_toNat (v : BitVec w) (b : Nat) : v.toNat.testBit b = true ↔ b ∈ ones v := by
  rw [mem_ones, BitVec.getLsbD]

theorem toNat_ne_zero (v : BitVec w) (hv : v ≠ 0#w) : v.toNat ≠ 0 := fun h =>
  hv (BitVec.eq_of_toNat_eq (by simpa using h))

theorem ones_eq_empty (v : BitVec w) : ones v = ∅ ↔ v = 0#w := by
  constructor
  · intro h
    apply BitVec.eq_of_getLsbD_eq
    intro b hb
    have hnot : b ∉ ones v := by simp [h]
    simpa using hnot
  · rintro rfl
    ext b
    simp

theorem ones_and (u v : BitVec w) : ones (u &&& v) = ones u ∩ ones v := by
  ext b
  simp

theorem ones_not (v : BitVec w) : ones (~~~v) = {b | b < w} \ ones v := by
  ext b
  simp

theorem ones_twoPow (b : Nat) (hb : b < w) : ones (1#w <<< b) = {b} := by
  ext c
  rw [← BitVec.twoPow_eq, mem_ones, BitVec.getLsbD_twoPow]
  simp [hb, eq_comm]

theorem and_shift_eq_zero (v : BitVec w) (b : Nat) (hb : b < w) : v &&& 1#w <<< b = 0#w ↔ v.getLsbD b = false := by
  rw [← ones_eq_empty, ones_and, ones_twoPow b hb, Set.inter_singleton_eq_empty, mem_ones, Bool.not_eq_true]

/-! ## The lowest and the highest bit -/

theorem isLeast_of_find (v : BitVec w) (b : Nat) (h : (List.range w).find? (v.getLsbD ·) = some b) :
    IsLeast (ones v) b := by
  rw [List.find?_range_eq_some] at h
  obtain ⟨hset, -, hbelow⟩ := h
  refine ⟨hset, fun c hc => ?_⟩
  by_contra hlt
  have hclear := hbelow c (by omega)
  rw [mem_ones] at hc
  simp [hc] at hclear

theorem exists_find (v : BitVec w) (hv : v ≠ 0#w) : ∃ b, (List.range w).find? (v.getLsbD ·) = some b := by
  obtain ⟨b, hb⟩ := Set.nonempty_iff_ne_empty.mpr (mt (ones_eq_empty v).mp hv)
  rw [← Option.isSome_iff_exists, List.find?_isSome]
  exact ⟨b, List.mem_range.mpr (lt_of_mem_ones v b hb), hb⟩

theorem isGreatest_log2 (v : BitVec w) (hv : v ≠ 0#w) : IsGreatest (ones v) v.toNat.log2 := by
  have hne := toNat_ne_zero v hv
  constructor
  · rw [← testBit_toNat]
    exact Nat.testBit_log2 hne
  · intro b hb
    rw [← testBit_toNat] at hb
    exact (Nat.le_log2 hne).mpr (Nat.ge_two_pow_of_testBit hb)

/-- A number that is halved `k` times, where it does not get to 0. -/
theorem log2_div_two_pow (n k : Nat) (h : 2 ^ k ≤ n) : (n / 2 ^ k).log2 + k = n.log2 := by
  have hpos : 0 < 2 ^ k := Nat.two_pow_pos k
  have hdiv : n / 2 ^ k ≠ 0 := (Nat.div_pos h hpos).ne'
  have hn : n ≠ 0 := by omega
  symm
  rw [Nat.log2_eq_iff hn]
  constructor
  · rw [Nat.pow_add]
    exact (Nat.le_div_iff_mul_le hpos).mp (Nat.log2_self_le hdiv)
  · have hlt := (Nat.div_lt_iff_lt_mul hpos).mp (Nat.lt_log2_self (n := n / 2 ^ k))
    calc n < 2 ^ ((n / 2 ^ k).log2 + 1) * 2 ^ k := hlt
      _ = 2 ^ ((n / 2 ^ k).log2 + k + 1) := by rw [← Nat.pow_add]; congr 1; omega

/-! ## One bit -/

theorem ones_eq_singleton (v : BitVec w) :
    (∃ b, ones v = {b}) ↔ v.toNat.isPowerOfTwo := by
  constructor
  · rintro ⟨b, hb⟩
    refine ⟨b, Nat.eq_of_testBit_eq fun c => ?_⟩
    rw [Bool.eq_iff_iff, testBit_toNat, hb, Nat.testBit_two_pow]
    simp [eq_comm]
  · rintro ⟨b, hb⟩
    refine ⟨b, ?_⟩
    ext c
    rw [← testBit_toNat, hb, Nat.testBit_two_pow]
    simp [eq_comm]

theorem and_sub_one_eq_zero (v : BitVec w) (hv : v ≠ 0#w) :
    v &&& (v - 1#w) = 0#w ↔ ∃ b, ones v = {b} := by
  have hne := toNat_ne_zero v hv
  have hlt := v.isLt
  have hsub : (v - 1#w).toNat = v.toNat - 1 := by
    have hone : (1#w).toNat = 1 := by
      rw [BitVec.toNat_ofNat]
      exact Nat.mod_eq_of_lt (by omega)
    rw [BitVec.toNat_sub_of_le (by rw [BitVec.le_def, hone]; omega), hone]
  rw [ones_eq_singleton v, ← Nat.and_sub_one_eq_zero_iff_isPowerOfTwo hne, BitVec.toNat_eq, BitVec.toNat_and,
    hsub]
  simp

/-- The word with bit `b` as given. -/
def assign (v : BitVec w) (b : Nat) (on : Bool) : BitVec w := if on then v ||| 1#w <<< b else v &&& ~~~(1#w <<< b)

theorem getLsbD_assign (v : BitVec w) (b : Nat) (on : Bool) (hb : b < w) (c : Nat) :
    (assign v b on).getLsbD c = if c = b then on else v.getLsbD c := by
  unfold assign
  rw [← BitVec.twoPow_eq]
  by_cases hc : c = b
  · subst hc
    cases on <;> simp [hb]
  · have hbc : b ≠ c := Ne.symm hc
    cases on
    · by_cases hcw : c < w
      · simp [hc, hcw]
      · simp [hc, BitVec.getLsbD_of_ge v c (by omega)]
    · simp [Ne.symm hc, hc]

theorem assign_eq_self (v : BitVec w) (b : Nat) (on : Bool) (hb : b < w) : v = assign v b on ↔ v.getLsbD b = on := by
  constructor
  · intro h
    have hbit := getLsbD_assign v b on hb b
    rwa [← h, if_pos rfl] at hbit
  · intro h
    apply BitVec.eq_of_getLsbD_eq
    intro c _
    rw [getLsbD_assign v b on hb]
    split
    · rename_i hc
      rw [hc, h]
    · rfl

end Bits
