import Salsa.HwParams.Params
import Salsa.Lib.Ends
import Mathlib.Algebra.Order.Ring.Rat
import Mathlib.Tactic.Linarith

/-!
# What masks and intervals denote

A mask denotes the values whose bits are set, and an interval the numbers between its
ends, integers only if it says so. The operations narrow both, as long as an end is not
moved past the 32 bits it has.
-/

open Ends

namespace Salsa.HwParams

/-! ## Masks -/

def mask_values (mask : SndMask) : Set Nat :=
  {v | ∃ w, MASK_OFS v = some w ∧ (mask.bits w).getLsbD (v % 32) = true}

def SubBits (new old : SndMask) : Prop :=
  ∀ w b, (new.bits w).getLsbD b = true → (old.bits w).getLsbD b = true

theorem SubBits.refl (mask : SndMask) : SubBits mask mask := fun _ _ h => h

theorem SubBits.trans {a b c : SndMask} (hab : SubBits a b) (hbc : SubBits b c) : SubBits a c :=
  fun w n h => hbc w n (hab w n h)

theorem SubBits.values {new old : SndMask} (h : SubBits new old) : mask_values new ⊆ mask_values old :=
  fun _ ⟨w, hw, hbit⟩ => ⟨w, hw, h w _ hbit⟩

theorem subBits_update (old : SndMask) (bits : Fin 8 → BitVec 32) (w : Fin 8) (m : BitVec 32)
    (hbits : SubBits ⟨bits⟩ old) : SubBits ⟨Function.update bits w (old.bits w &&& m)⟩ old := by
  intro w' b h
  by_cases hw : w' = w
  · subst hw
    simp only [Function.update_self, BitVec.getLsbD_and, Bool.and_eq_true] at h
    exact h.1
  · simp only [Function.update_of_ne hw] at h
    exact hbits w' b h

theorem mask_leave_single_sub (mask mask' : SndMask) (val : Nat)
    (h : mask_leave_single mask val = some mask') : SubBits mask' mask := by
  obtain ⟨w, -, rfl⟩ := Option.map_eq_some_iff.mp h
  exact subBits_update mask _ w _ fun w b hb => by simp [mask_clear] at hb

theorem mask_reset_loop_sub (n first : Nat) (mask mask' : SndMask)
    (h : mask_reset_loop n first mask = some mask') : SubBits mask' mask := by
  induction n generalizing first mask with
  | zero => exact Option.some.inj h ▸ SubBits.refl mask
  | succ n ih =>
    obtain ⟨mask1, hreset, hloop⟩ := Option.bind_eq_some_iff.mp h
    obtain ⟨w, -, rfl⟩ := Option.map_eq_some_iff.mp hreset
    exact (ih _ _ hloop).trans (subBits_update mask _ w _ (SubBits.refl mask))

/-- A mask operation leaves part of the mask. -/
def MaskNarrows (mask : SndMask) (r : Option (Int × SndMask)) : Prop :=
  ∀ ret mask', r = some (ret, mask') → SubBits mask' mask

theorem maskNarrows_map (mask : SndMask) (r : Option SndMask) (ret : SndMask → Int)
    (h : ∀ mask', r = some mask' → SubBits mask' mask) :
    MaskNarrows mask (r.map fun mask' => (ret mask', mask')) := by
  intro ret' mask' hr
  obtain ⟨mask1, h1, heq⟩ := Option.map_eq_some_iff.mp hr
  simp only [Prod.mk.injEq] at heq
  exact heq.2 ▸ h mask1 h1

theorem maskNarrows_self (mask : SndMask) (ret : Int) : MaskNarrows mask (some (ret, mask)) := by
  intro ret' mask' hr
  simp only [Option.some.injEq, Prod.mk.injEq] at hr
  exact hr.2 ▸ SubBits.refl mask

theorem snd_mask_refine_first_narrows (mask : SndMask) : MaskNarrows mask (snd_mask_refine_first mask) := by
  unfold snd_mask_refine_first
  split_ifs
  · exact maskNarrows_self mask _
  · exact maskNarrows_self mask _
  · exact maskNarrows_map mask _ (fun _ => 1) fun mask' h => mask_leave_single_sub mask mask' _ h

theorem snd_mask_refine_last_narrows (mask : SndMask) : MaskNarrows mask (snd_mask_refine_last mask) := by
  unfold snd_mask_refine_last
  split_ifs
  · exact maskNarrows_self mask _
  · exact maskNarrows_self mask _
  · exact maskNarrows_map mask _ (fun _ => 1) fun mask' h => mask_leave_single_sub mask mask' _ h

theorem snd_mask_refine_min_narrows (mask : SndMask) (val : Nat) :
    MaskNarrows mask (snd_mask_refine_min mask val) := by
  unfold snd_mask_refine_min
  split_ifs
  · exact maskNarrows_self mask _
  · exact maskNarrows_self mask _
  · exact maskNarrows_map mask _ (fun m => if mask_is_empty m then -EINVAL else 1)
      fun mask' h => mask_reset_loop_sub _ _ mask mask' h

theorem snd_mask_refine_max_narrows (mask : SndMask) (val : Nat) :
    MaskNarrows mask (snd_mask_refine_max mask val) := by
  unfold snd_mask_refine_max
  split_ifs
  · exact maskNarrows_self mask _
  · exact maskNarrows_self mask _
  · exact maskNarrows_map mask _ (fun m => if mask_is_empty m then -EINVAL else 1)
      fun mask' h => mask_reset_loop_sub _ _ mask mask' h

theorem snd_mask_refine_set_narrows (mask : SndMask) (val : Nat) :
    MaskNarrows mask (snd_mask_refine_set mask val) := by
  unfold snd_mask_refine_set
  by_cases hempty : mask_is_empty mask = true
  · rw [if_pos hempty]
    exact maskNarrows_self mask _
  · rw [if_neg hempty]
    exact maskNarrows_map mask (mask_leave_single mask val)
      (fun m => if mask_is_empty m then -EINVAL else if mask_is_single mask then 0 else 1)
      fun mask' h => mask_leave_single_sub mask mask' _ h

/-! ## Intervals -/

def num (x : BitVec 32) : ℚ := x.toNat

/-- The numbers between the ends. -/
def denote (i : SndInterval) : Set ℚ :=
  {x | x ∈ above (num i.min) i.openmin ∧ x ∈ below (num i.max) i.openmax ∧
    (i.integer = true → ∃ z : ℤ, x = z)}

theorem num_inj (a b : BitVec 32) (h : num a = num b) : a = b := by
  unfold num at h
  exact BitVec.eq_of_toNat_eq (by exact_mod_cast h)

theorem num_lt_iff (a b : BitVec 32) : a < b ↔ num a < num b := by
  rw [BitVec.lt_def]
  unfold num
  exact Nat.cast_lt.symm

theorem num_le_iff (a b : BitVec 32) : a ≤ b ↔ num a ≤ num b := by
  rw [BitVec.le_def]
  unfold num
  exact Nat.cast_le.symm

theorem num_lt (a b : BitVec 32) (h : a < b) : num a < num b := (num_lt_iff a b).mp h

theorem num_integer (a : BitVec 32) : ∃ z : ℤ, num a = z := ⟨a.toNat, by rw [num]; norm_cast⟩

theorem num_add_one_le (a b : BitVec 32) (h : a < b) : num a + 1 ≤ num b := by
  have hnat : a.toNat + 1 ≤ b.toNat := h
  unfold num
  exact_mod_cast hnat

theorem num_add_one (a : BitVec 32) (h : a ≠ UINT_MAX) : num (a + 1#32) = num a + 1 := by
  have hlt : a.toNat + 1 < 2 ^ 32 := by
    have := a.isLt
    by_contra hge
    exact h (BitVec.eq_of_toNat_eq (by simp [UINT_MAX]; omega))
  have : (a + 1#32).toNat = a.toNat + 1 := by
    rw [BitVec.toNat_add, BitVec.toNat_ofNat]
    omega
  rw [num, this, num]
  push_cast
  rfl

theorem num_sub_one (a : BitVec 32) (h : a ≠ 0#32) : num (a - 1#32) + 1 = num a := by
  have hpos : 1 ≤ a.toNat := by
    by_contra hlt
    exact h (BitVec.eq_of_toNat_eq (by simp; omega))
  have : (a - 1#32).toNat + 1 = a.toNat := by
    have := a.isLt
    rw [BitVec.toNat_sub, BitVec.toNat_ofNat]
    omega
  rw [num, num, ← this]
  push_cast
  rfl

/-- The integers, or all numbers. -/
def integers (integer : Bool) : Set ℚ := {x | integer = true → ∃ z : ℤ, x = z}

theorem flag_integer_spec (r : Bool × SndInterval) (integer : Bool) :
    denote (flag_integer r integer).2 = denote r.2 ∩ integers integer := by
  unfold flag_integer
  ext x
  by_cases hflag : ¬ r.2.integer = true ∧ integer = true
  · rw [if_pos hflag]
    constructor
    · rintro ⟨hmin, hmax, hint⟩
      exact ⟨⟨hmin, hmax, fun _ => hint rfl⟩, fun _ => hint rfl⟩
    · rintro ⟨⟨hmin, hmax, -⟩, hint⟩
      exact ⟨hmin, hmax, fun _ => hint hflag.2⟩
  · rw [if_neg hflag]
    constructor
    · rintro ⟨hmin, hmax, hint⟩
      refine ⟨⟨hmin, hmax, hint⟩, fun hi => hint ?_⟩
      by_contra hn
      exact hflag ⟨hn, hi⟩
    · exact fun h => h.1

theorem flag_integer_frame (r : Bool × SndInterval) (integer : Bool) :
    (flag_integer r integer).2 = { r.2 with integer := r.2.integer || integer } := by
  obtain ⟨changed, ⟨min, max, openmin, openmax, int, empty⟩⟩ := r
  cases int <;> cases integer <;> rfl

theorem checked_denote (changed : Bool) (i : SndInterval) : denote (checked changed i).2 = denote i := by
  unfold checked interval_check_empty
  split_ifs <;> rfl

theorem checked_ok (changed : Bool) (i : SndInterval) (h : 0 ≤ (checked changed i).1) :
    (checked changed i).2 = i ∧ interval_is_crossed i = false := by
  unfold checked interval_check_empty at h ⊢
  by_cases hc : interval_is_crossed i = true
  · simp [hc, EINVAL] at h
  · simp [hc]

/-! ### The lower end -/

/-- The lower end is open at the last value, and the interval holds integers: `min++` wraps. -/
def MinWraps (i : SndInterval) (min : BitVec 32) (openmin integer : Bool) : Prop :=
  let j := (raise_min i min openmin).2
  i.empty = false ∧ (j.integer = true ∨ integer = true) ∧ j.openmin = true ∧ j.min = UINT_MAX

theorem raise_min_spec (i : SndInterval) (min : BitVec 32) (openmin : Bool) :
    denote (raise_min i min openmin).2 = denote i ∩ above (num min) openmin := by
  unfold raise_min
  split_ifs with hlt hopen
  · apply Set.Subset.antisymm
    · rintro x ⟨hmin, hmax, hint⟩
      exact ⟨⟨above_subset_of_lt _ _ _ openmin (num_lt _ _ hlt) hmin, hmax, hint⟩, hmin⟩
    · rintro x ⟨⟨-, hmax, hint⟩, hmin⟩
      exact ⟨hmin, hmax, hint⟩
  · obtain ⟨rfl, -, rfl⟩ := hopen
    apply Set.Subset.antisymm
    · rintro x ⟨hmin, hmax, hint⟩
      exact ⟨⟨above_subset_of_open _ _ true (fun _ => rfl) hmin, hmax, hint⟩, hmin⟩
    · rintro x ⟨⟨-, hmax, hint⟩, hmin⟩
      exact ⟨hmin, hmax, hint⟩
  · symm
    apply Set.inter_eq_left.mpr
    rintro x ⟨hmin, -⟩
    by_cases heq : i.min = min
    · subst heq
      refine above_subset_of_open _ _ i.openmin (fun ho => ?_) hmin
      by_contra hclosed
      exact hopen ⟨rfl, hclosed, ho⟩
    · have hgt : min < i.min := by
        have hne : i.min.toNat ≠ min.toNat := fun h => heq (BitVec.eq_of_toNat_eq h)
        have hle : ¬ i.min.toNat < min.toNat := hlt
        exact BitVec.lt_def.mpr (by omega)
      exact above_subset_of_lt _ _ _ i.openmin (num_lt _ _ hgt) hmin

theorem add_one_le_of_lt (a : BitVec 32) (z : ℤ) (h : num a < z) : num a + 1 ≤ z := by
  unfold num at h ⊢
  have hlt : (a.toNat : ℤ) < z := by exact_mod_cast h
  have hle : (a.toNat : ℤ) + 1 ≤ z := hlt
  exact_mod_cast hle

theorem close_min_spec (i : SndInterval)
    (h : ¬ (i.integer = true ∧ i.openmin = true ∧ i.min = UINT_MAX)) : denote (close_min i) = denote i := by
  unfold close_min
  split_ifs with hclose
  · have hone := num_add_one i.min fun hwrap => h ⟨hclose.1, hclose.2, hwrap⟩
    apply Set.Subset.antisymm
    · rintro x ⟨hmin, hmax, hint⟩
      refine ⟨?_, hmax, hint⟩
      rw [hone, mem_above_closed] at hmin
      exact mem_above_of_lt _ _ _ (by linarith)
    · rintro x ⟨hmin, hmax, hint⟩
      refine ⟨?_, hmax, hint⟩
      obtain ⟨z, rfl⟩ := hint hclose.1
      rw [hclose.2, mem_above_open] at hmin
      rw [hone, mem_above_closed]
      exact add_one_le_of_lt i.min z hmin
  · rfl

theorem raise_min_frame (i : SndInterval) (min : BitVec 32) (openmin : Bool) :
    (raise_min i min openmin).2.max = i.max ∧ (raise_min i min openmin).2.openmax = i.openmax ∧
      (raise_min i min openmin).2.integer = i.integer := by
  unfold raise_min
  split_ifs <;> exact ⟨rfl, rfl, rfl⟩

theorem close_min_frame (i : SndInterval) :
    (close_min i).max = i.max ∧ (close_min i).openmax = i.openmax ∧ (close_min i).integer = i.integer := by
  unfold close_min
  split_ifs <;> exact ⟨rfl, rfl, rfl⟩

theorem snd_interval_refine_min_eq (i : SndInterval) (min : BitVec 32) (openmin integer : Bool)
    (h : i.empty = false) :
    snd_interval_refine_min i min openmin integer =
      checked (flag_integer (raise_min i min openmin) integer).1
        (close_min (flag_integer (raise_min i min openmin) integer).2) := by
  rw [snd_interval_refine_min, if_neg (by simp [h])]

theorem not_empty_of_refine_min (i : SndInterval) (min : BitVec 32) (openmin integer : Bool)
    (hret : 0 ≤ (snd_interval_refine_min i min openmin integer).1) : i.empty = false := by
  by_contra hempty
  rw [Bool.not_eq_false] at hempty
  simp [snd_interval_refine_min, hempty, ENOENT] at hret

/-- What a refinement of the lower end denotes, whatever it returns. -/
theorem snd_interval_refine_min_denote (i : SndInterval) (min : BitVec 32) (openmin integer : Bool)
    (hempty : i.empty = false) (hwrap : ¬ MinWraps i min openmin integer) :
    denote (snd_interval_refine_min i min openmin integer).2 =
      denote i ∩ above (num min) openmin ∩ integers integer := by
  have hframe := flag_integer_frame (raise_min i min openmin) integer
  rw [snd_interval_refine_min_eq i min openmin integer hempty, checked_denote, close_min_spec, flag_integer_spec,
    raise_min_spec]
  rw [hframe]
  rintro ⟨hint, hopen, hlast⟩
  exact hwrap ⟨hempty, by simpa using hint, hopen, hlast⟩

/-- What a refinement of the lower end leaves, unless `min++` wraps. -/
theorem snd_interval_refine_min_spec (i : SndInterval) (min : BitVec 32) (openmin integer : Bool)
    (hwrap : ¬ MinWraps i min openmin integer)
    (hret : 0 ≤ (snd_interval_refine_min i min openmin integer).1) :
    denote (snd_interval_refine_min i min openmin integer).2 ⊆
        denote i ∩ above (num min) openmin ∩ integers integer ∧
      interval_is_crossed (snd_interval_refine_min i min openmin integer).2 = false ∧
      (snd_interval_refine_min i min openmin integer).2.max = i.max ∧
      (snd_interval_refine_min i min openmin integer).2.openmax = i.openmax ∧
      (snd_interval_refine_min i min openmin integer).2.integer = (i.integer || integer) := by
  have hempty := not_empty_of_refine_min i min openmin integer hret
  have hdenote := snd_interval_refine_min_denote i min openmin integer hempty hwrap
  obtain ⟨hmax, hopenmax, hinteger⟩ := raise_min_frame i min openmin
  have hframe := flag_integer_frame (raise_min i min openmin) integer
  rw [snd_interval_refine_min_eq i min openmin integer hempty] at hret hdenote ⊢
  obtain ⟨hsame, hcrossed⟩ := checked_ok _ _ hret
  rw [hsame] at hdenote ⊢
  obtain ⟨hmax', hopenmax', hinteger'⟩ := close_min_frame (flag_integer (raise_min i min openmin) integer).2
  refine ⟨hdenote.le, hcrossed, ?_, ?_, ?_⟩
  · rw [hmax', hframe, hmax]
  · rw [hopenmax', hframe, hopenmax]
  · rw [hinteger', hframe, hinteger]

theorem le_UINT_MAX (x : BitVec 32) : ¬ UINT_MAX < x := by
  have := x.isLt
  simp only [BitVec.lt_def, UINT_MAX, BitVec.toNat_neg, BitVec.toNat_ofNat]
  omega

theorem raise_min_last (i : SndInterval) :
    (raise_min i UINT_MAX true).2.min = UINT_MAX ∧ (raise_min i UINT_MAX true).2.openmin = true := by
  unfold raise_min
  split_ifs with hlt heq
  · exact ⟨rfl, rfl⟩
  · exact ⟨heq.1, rfl⟩
  · have hmin : i.min = UINT_MAX := by
      have hle : ¬ UINT_MAX.toNat < i.min.toNat := le_UINT_MAX i.min
      have hge : ¬ i.min.toNat < UINT_MAX.toNat := hlt
      exact BitVec.eq_of_toNat_eq (by omega)
    refine ⟨hmin, ?_⟩
    by_contra hopen
    exact heq ⟨hmin, hopen, rfl⟩

/-- Nothing is above the last value: the refinement fails, or `min++` wraps. -/
theorem refine_min_last (i : SndInterval) (integer : Bool) (hwrap : ¬ MinWraps i UINT_MAX true integer) :
    ¬ 0 ≤ (snd_interval_refine_min i UINT_MAX true integer).1 := by
  intro hret
  have hempty := not_empty_of_refine_min i UINT_MAX true integer hret
  obtain ⟨hmin, hopen⟩ := raise_min_last i
  have hframe := flag_integer_frame (raise_min i UINT_MAX true) integer
  rw [snd_interval_refine_min_eq i UINT_MAX true integer hempty] at hret
  obtain ⟨-, hcrossed⟩ := checked_ok _ _ hret
  have hint : ¬ ((raise_min i UINT_MAX true).2.integer || integer) = true := fun h =>
    hwrap ⟨hempty, by simpa using h, hopen, hmin⟩
  rw [hframe, close_min, if_neg fun h => hint h.1, interval_is_crossed, Bool.or_eq_false_iff] at hcrossed
  simp only [hmin, hopen, Bool.true_or, Bool.and_true, gt_iff_lt, decide_eq_false_iff_not,
    beq_eq_false_iff_ne] at hcrossed
  obtain ⟨hle, hne⟩ := hcrossed
  have hge := le_UINT_MAX (raise_min i UINT_MAX true).2.max
  rw [BitVec.lt_def] at hle hge
  exact hne (BitVec.eq_of_toNat_eq (by omega))

/-! ### The upper end -/

/-- The upper end is open at 0, and the interval holds integers: `max--` wraps. -/
def MaxWraps (i : SndInterval) (max : BitVec 32) (openmax integer : Bool) : Prop :=
  let j := (lower_max i max openmax).2
  i.empty = false ∧ (j.integer = true ∨ integer = true) ∧ j.openmax = true ∧ j.max = 0#32

theorem lower_max_spec (i : SndInterval) (max : BitVec 32) (openmax : Bool) :
    denote (lower_max i max openmax).2 = denote i ∩ below (num max) openmax := by
  unfold lower_max
  split_ifs with hgt hopen
  · apply Set.Subset.antisymm
    · rintro x ⟨hmin, hmax, hint⟩
      exact ⟨⟨hmin, below_subset_of_lt _ _ _ openmax (num_lt _ _ hgt) hmax, hint⟩, hmax⟩
    · rintro x ⟨⟨hmin, -, hint⟩, hmax⟩
      exact ⟨hmin, hmax, hint⟩
  · obtain ⟨rfl, -, rfl⟩ := hopen
    apply Set.Subset.antisymm
    · rintro x ⟨hmin, hmax, hint⟩
      exact ⟨⟨hmin, below_subset_of_open _ _ true (fun _ => rfl) hmax, hint⟩, hmax⟩
    · rintro x ⟨⟨hmin, -, hint⟩, hmax⟩
      exact ⟨hmin, hmax, hint⟩
  · symm
    apply Set.inter_eq_left.mpr
    rintro x ⟨-, hmax, -⟩
    by_cases heq : i.max = max
    · subst heq
      refine below_subset_of_open _ _ i.openmax (fun ho => ?_) hmax
      by_contra hclosed
      exact hopen ⟨rfl, hclosed, ho⟩
    · have hlt : i.max < max := by
        have hne : i.max.toNat ≠ max.toNat := fun h => heq (BitVec.eq_of_toNat_eq h)
        have hle : ¬ max.toNat < i.max.toNat := hgt
        exact BitVec.lt_def.mpr (by omega)
      exact below_subset_of_lt _ _ _ i.openmax (num_lt _ _ hlt) hmax

theorem le_sub_one_of_lt (a : BitVec 32) (z : ℤ) (h : (z : ℚ) < num a) : (z : ℚ) + 1 ≤ num a := by
  unfold num at h ⊢
  have hlt : z < (a.toNat : ℤ) := by exact_mod_cast h
  have hle : z + 1 ≤ (a.toNat : ℤ) := hlt
  exact_mod_cast hle

theorem close_max_spec (i : SndInterval)
    (h : ¬ (i.integer = true ∧ i.openmax = true ∧ i.max = 0#32)) : denote (close_max i) = denote i := by
  unfold close_max
  split_ifs with hclose
  · have hone := num_sub_one i.max fun hzero => h ⟨hclose.1, hclose.2, hzero⟩
    apply Set.Subset.antisymm
    · rintro x ⟨hmin, hmax, hint⟩
      refine ⟨hmin, ?_, hint⟩
      rw [mem_below_closed] at hmax
      exact mem_below_of_lt _ _ _ (by linarith)
    · rintro x ⟨hmin, hmax, hint⟩
      refine ⟨hmin, ?_, hint⟩
      obtain ⟨z, rfl⟩ := hint hclose.1
      rw [hclose.2, mem_below_open] at hmax
      rw [mem_below_closed]
      have hle := le_sub_one_of_lt i.max z hmax
      linarith
  · rfl

theorem snd_interval_refine_max_eq (i : SndInterval) (max : BitVec 32) (openmax integer : Bool)
    (h : i.empty = false) :
    snd_interval_refine_max i max openmax integer =
      checked (flag_integer (lower_max i max openmax) integer).1
        (close_max (flag_integer (lower_max i max openmax) integer).2) := by
  rw [snd_interval_refine_max, if_neg (by simp [h])]

theorem snd_interval_refine_max_denote (i : SndInterval) (max : BitVec 32) (openmax integer : Bool)
    (hempty : i.empty = false) (hwrap : ¬ MaxWraps i max openmax integer) :
    denote (snd_interval_refine_max i max openmax integer).2 =
      denote i ∩ below (num max) openmax ∩ integers integer := by
  have hframe := flag_integer_frame (lower_max i max openmax) integer
  rw [snd_interval_refine_max_eq i max openmax integer hempty, checked_denote, close_max_spec, flag_integer_spec,
    lower_max_spec]
  rw [hframe]
  rintro ⟨hint, hopen, hzero⟩
  exact hwrap ⟨hempty, by simpa using hint, hopen, hzero⟩

theorem snd_interval_refine_max_spec (i : SndInterval) (max : BitVec 32) (openmax integer : Bool)
    (hwrap : ¬ MaxWraps i max openmax integer)
    (hret : 0 ≤ (snd_interval_refine_max i max openmax integer).1) :
    denote (snd_interval_refine_max i max openmax integer).2 ⊆
      denote i ∩ below (num max) openmax ∩ integers integer := by
  by_cases hempty : i.empty = true
  · simp [snd_interval_refine_max, hempty, ENOENT] at hret
  · exact (snd_interval_refine_max_denote i max openmax integer (by simpa using hempty) hwrap).le

theorem maxWraps_congr (i i' : SndInterval) (max : BitVec 32) (openmax integer : Bool)
    (hempty : i.empty = false) (hmax : i'.max = i.max) (hopen : i'.openmax = i.openmax)
    (hint : i'.integer = i.integer) (h : MaxWraps i' max openmax integer) :
    MaxWraps i max openmax integer := by
  obtain ⟨-, hint', hopen', hzero⟩ := h
  refine ⟨hempty, ?_⟩
  unfold lower_max at hint' hopen' hzero ⊢
  rw [hmax, hopen] at hint' hopen' hzero
  split_ifs at hint' hopen' hzero ⊢
  · exact ⟨hint ▸ hint', hopen', hzero⟩
  · exact ⟨hint ▸ hint', rfl, hmax ▸ hzero⟩
  · exact ⟨hint ▸ hint', hopen ▸ hopen', hmax ▸ hzero⟩

/-- Behind a refined lower end, `max--` wraps only if the new end is 0 itself. -/
theorem not_maxWraps (i : SndInterval) (max : BitVec 32) (openmax integer : Bool)
    (hcrossed : interval_is_crossed i = false) (hmax : max ≠ 0#32 ∨ openmax = false) :
    ¬ MaxWraps i max openmax integer := by
  rintro ⟨-, -, hopen, hzero⟩
  unfold lower_max at hopen hzero
  split_ifs at hopen hzero with hgt heq
  · rcases hmax with hmax | hmax
    · exact hmax hzero
    · exact absurd (hmax.symm.trans hopen) (by decide)
  · rcases hmax with hmax | hmax
    · exact hmax (heq.1 ▸ hzero)
    · exact absurd (hmax.symm.trans heq.2.2) (by decide)
  · -- The end that is there already: nothing is left below it.
    dsimp only at hopen hzero
    rw [interval_is_crossed, Bool.or_eq_false_iff, hzero, hopen, Bool.or_true, Bool.and_true] at hcrossed
    obtain ⟨hle, hmeet⟩ := hcrossed
    exact beq_eq_false_iff_ne.mp hmeet (by simpa using hle)

/-! ### Both ends -/

theorem snd_interval_refine_spec (i v : SndInterval) (hmin : ¬ MinWraps i v.min v.openmin v.integer)
    (hmax : 0 ≤ (snd_interval_refine_min i v.min v.openmin v.integer).1 →
      v.max ≠ 0#32 ∨ v.openmax = false)
    (hret : 0 ≤ (snd_interval_refine i v).1) :
    denote (snd_interval_refine i v).2 ⊆
      denote i ∩ above (num v.min) v.openmin ∩ below (num v.max) v.openmax ∩ integers v.integer := by
  obtain ⟨⟨err, i1⟩, h1⟩ : ∃ r, snd_interval_refine_min i v.min v.openmin v.integer = r := ⟨_, rfl⟩
  obtain ⟨⟨err2, i2⟩, h2⟩ : ∃ r, snd_interval_refine_max i1 v.max v.openmax v.integer = r := ⟨_, rfl⟩
  have hspec1 := snd_interval_refine_min_spec i v.min v.openmin v.integer hmin
  simp only [snd_interval_refine, h1, h2] at hret hmax hspec1 ⊢
  split_ifs at hret ⊢ with herr herr2 hpoint
  · exact absurd hret (by simpa using herr)
  · exact absurd hret (by simpa using herr2)
  all_goals
    obtain ⟨hsub1, hcrossed, -⟩ := hspec1 (by omega)
    have hspec2 := snd_interval_refine_max_spec i1 v.max v.openmax v.integer
      (not_maxWraps i1 v.max v.openmax v.integer hcrossed (hmax (by omega)))
    rw [h2] at hspec2
    have hsub2 := hspec2 (by omega)
    have hall : denote i2 ⊆ denote i ∩ above (num v.min) v.openmin ∩ below (num v.max) v.openmax ∩
        integers v.integer := by
      intro x hx
      obtain ⟨⟨hx1, hbelow⟩, hint⟩ := hsub2 hx
      obtain ⟨⟨hxi, habove⟩, -⟩ := hsub1 hx1
      exact ⟨⟨⟨hxi, habove⟩, hbelow⟩, hint⟩
  · refine fun x hx => hall ⟨hx.1, hx.2.1, fun h => absurd h hpoint.1⟩
  · exact hall

/-! ### The first and the last value -/

/-- The ends have crossed, and nothing says that the interval is empty. -/
def Inverted (i : SndInterval) : Prop :=
  i.empty = false ∧ interval_is_single i = false ∧ i.max < i.min

theorem lt_of_not_inverted (i : SndInterval) (hempty : i.empty = false)
    (hsingle : interval_is_single i = false) (h : ¬ Inverted i) : i.min < i.max := by
  have hne : i.min ≠ i.max := by
    rintro heq
    simp [interval_is_single, heq] at hsingle
  have hne' : i.min.toNat ≠ i.max.toNat := fun h => hne (BitVec.eq_of_toNat_eq h)
  have hle : ¬ i.max.toNat < i.min.toNat := fun hlt => h ⟨hempty, hsingle, hlt⟩
  exact BitVec.lt_def.mpr (by omega)

theorem snd_interval_refine_first_spec (i : SndInterval) (h : ¬ Inverted i)
    (hret : 0 ≤ (snd_interval_refine_first i).1) : denote (snd_interval_refine_first i).2 ⊆ denote i := by
  unfold snd_interval_refine_first at hret ⊢
  by_cases hempty : i.empty = true
  · simp [hempty, ENOENT] at hret
  by_cases hsingle : interval_is_single i = true
  · simp [hempty, hsingle]
  have hlt := lt_of_not_inverted i (by simpa using hempty) (by simpa using hsingle) h
  rw [if_neg hempty, if_neg hsingle]
  rintro x ⟨hmin, hmax, hint⟩
  refine ⟨hmin, ?_, hint⟩
  cases hopen : i.openmin with
  | true =>
    have hne : i.min ≠ UINT_MAX := fun heq => by
      have hlt' : i.min.toNat < i.max.toNat := hlt
      have := i.max.isLt
      simp [heq, UINT_MAX] at hlt'
      omega
    have hle : num i.min + 1 ≤ num i.max := num_add_one_le _ _ hlt
    simp only [hopen, if_true, num_add_one i.min hne, mem_below_open] at hmax
    exact mem_below_of_lt _ _ _ (by linarith)
  | false =>
    simp only [hopen, Bool.false_eq_true, if_false, mem_below_closed] at hmax
    exact mem_below_of_lt _ _ _ (lt_of_le_of_lt hmax (num_lt _ _ hlt))

theorem snd_interval_refine_last_spec (i : SndInterval) (h : ¬ Inverted i)
    (hret : 0 ≤ (snd_interval_refine_last i).1) : denote (snd_interval_refine_last i).2 ⊆ denote i := by
  unfold snd_interval_refine_last at hret ⊢
  by_cases hempty : i.empty = true
  · simp [hempty, ENOENT] at hret
  by_cases hsingle : interval_is_single i = true
  · simp [hempty, hsingle]
  have hlt := lt_of_not_inverted i (by simpa using hempty) (by simpa using hsingle) h
  rw [if_neg hempty, if_neg hsingle]
  rintro x ⟨hmin, hmax, hint⟩
  refine ⟨?_, hmax, hint⟩
  cases hopen : i.openmax with
  | true =>
    have hle : num i.min + 1 ≤ num i.max := num_add_one_le _ _ hlt
    have hne : i.max ≠ 0#32 := fun heq => by
      have hlt' : i.min.toNat < i.max.toNat := hlt
      simp [heq] at hlt'
    have hone := num_sub_one i.max hne
    simp only [hopen, if_true, mem_above_open] at hmin
    exact mem_above_of_lt _ _ _ (by linarith)
  | false =>
    simp only [hopen, Bool.false_eq_true, if_false, mem_above_closed] at hmin
    exact mem_above_of_lt _ _ _ (lt_of_lt_of_le (num_lt _ _ hlt) hmin)

end Salsa.HwParams
