import Salsa.HwParams.Denote
import Salsa.Lib.Bits
import Mathlib.Order.CompletePartialOrder

/-!
# Mask refinement as refinement of sets

The 256 bits of a mask are spread over eight words. The lowest and the highest value are
found word by word, and every refinement leaves the set that it is named after.
-/

open Bits

namespace Salsa.HwParams

/-! ## The values of a mask -/

theorem MASK_OFS_eq_some (v : Nat) (w : Fin 8) : MASK_OFS v = some w ↔ v / 32 = w.val := by
  have hw := w.isLt
  unfold MASK_OFS
  split_ifs with h
  · simp [Fin.ext_iff]
  · simp
    omega

theorem mem_mask_values (mask : SndMask) (v : Nat) :
    v ∈ mask_values mask ↔ ∃ w : Fin 8, v / 32 = w.val ∧ v % 32 ∈ ones (mask.bits w) := by
  simp only [mask_values, Set.mem_ofPred_eq, MASK_OFS_eq_some, mem_ones]

theorem bit_mem (mask : SndMask) (w : Fin 8) (b : Nat) (hb : b ∈ ones (mask.bits w)) :
    b + 32 * w.val ∈ mask_values mask := by
  have hlt := lt_of_mem_ones _ _ hb
  refine (mem_mask_values mask _).mpr ⟨w, by omega, ?_⟩
  rwa [Nat.add_mul_mod_self_left, Nat.mod_eq_of_lt hlt]

theorem mem_lt (mask : SndMask) (v : Nat) (h : v ∈ mask_values mask) : v < SND_MASK_MAX := by
  obtain ⟨w, hw, -⟩ := (mem_mask_values mask v).mp h
  have := w.isLt
  simp only [SND_MASK_MAX]
  omega

theorem values_eq_empty (mask : SndMask) : mask_values mask = ∅ ↔ ∀ w, mask.bits w = 0#32 := by
  constructor
  · intro h w
    rw [← ones_eq_empty, Set.eq_empty_iff_forall_notMem]
    intro b hb
    have hmem := bit_mem mask w b hb
    simp [h] at hmem
  · intro h
    rw [Set.eq_empty_iff_forall_notMem]
    intro v hv
    obtain ⟨w, -, hb⟩ := (mem_mask_values mask v).mp hv
    simp [h w] at hb

theorem mask_is_empty_iff (mask : SndMask) : mask_is_empty mask = true ↔ mask_values mask = ∅ := by
  rw [values_eq_empty, mask_is_empty, decide_eq_true_iff]

theorem exists_word (mask : SndMask) (h : (mask_values mask).Nonempty) : ∃ w, mask.bits w ≠ 0#32 := by
  by_contra hnone
  push Not at hnone
  exact h.ne_empty ((values_eq_empty mask).mpr hnone)

/-! ## Single bits -/

theorem word_mem (v : Nat) (h : v < SND_MASK_MAX) : ∃ w : Fin 8, MASK_OFS v = some w ∧ v / 32 = w.val := by
  simp only [SND_MASK_MAX] at h
  exact ⟨⟨v / 32, by omega⟩, (MASK_OFS_eq_some v _).mpr rfl, rfl⟩

theorem ones_MASK_BIT (v : Nat) : ones (MASK_BIT v) = {v % 32} :=
  ones_twoPow (v % 32) (Nat.mod_lt v (by decide))

theorem mem_word (mask : SndMask) (w : Fin 8) (v : Nat) (hw : v / 32 = w.val) :
    v ∈ mask_values mask ↔ v % 32 ∈ ones (mask.bits w) := by
  rw [mem_mask_values]
  constructor
  · rintro ⟨w', hv, hb⟩
    obtain rfl : w' = w := Fin.ext (by omega)
    exact hb
  · exact fun hb => ⟨w, hw, hb⟩

/-- A word that is replaced takes its 32 values with it. -/
theorem mem_update (mask : SndMask) (w : Fin 8) (x : BitVec 32) (v : Nat) :
    v ∈ mask_values ⟨Function.update mask.bits w x⟩ ↔
      if v / 32 = w.val then v % 32 ∈ ones x else v ∈ mask_values mask := by
  split_ifs with hw
  · rw [mem_word _ w v hw]
    dsimp only
    rw [Function.update_self]
  · rw [mem_mask_values, mem_mask_values]
    refine exists_congr fun w' => and_congr_right fun hv => ?_
    have hne : w' ≠ w := by
      rintro rfl
      exact hw hv
    dsimp only
    rw [Function.update_of_ne hne]

theorem mask_reset_spec (mask : SndMask) (val : Nat) (h : val < SND_MASK_MAX) :
    ∃ mask', mask_reset mask val = some mask' ∧ mask_values mask' = mask_values mask \ {val} := by
  obtain ⟨w, hofs, hw⟩ := word_mem val h
  refine ⟨_, by rw [mask_reset, hofs, Option.map_some], ?_⟩
  ext v
  rw [mem_update, Set.mem_sdiff, Set.mem_singleton_iff]
  split_ifs with hv
  · have hsame : v % 32 = val % 32 ↔ v = val := by omega
    have hlt : v % 32 < 32 := Nat.mod_lt v (by decide)
    rw [mem_word mask w v hv, ones_and, ones_not, ones_MASK_BIT]
    simp [hsame, hlt]
  · have hne : v ≠ val := by
      rintro rfl
      exact hv hw
    simp [hne]

theorem mask_leave_single_spec (mask : SndMask) (val : Nat) (h : val < SND_MASK_MAX) :
    ∃ mask', mask_leave_single mask val = some mask' ∧ mask_values mask' = mask_values mask ∩ {val} := by
  obtain ⟨w, hofs, hw⟩ := word_mem val h
  refine ⟨_, by rw [mask_leave_single, hofs, Option.map_some], ?_⟩
  ext v
  rw [mem_update, Set.mem_inter_iff, Set.mem_singleton_iff]
  split_ifs with hv
  · have hsame : v % 32 = val % 32 ↔ v = val := by omega
    rw [mem_word mask w v hv, ones_and, ones_MASK_BIT]
    simp [hsame]
  · have hne : v ≠ val := by
      rintro rfl
      exact hv hw
    have hclear : mask_values mask_clear = ∅ := (values_eq_empty mask_clear).mpr fun _ => rfl
    simp [hne, hclear]

/-- The loop of `mask_reset_range`, with `n` values to go. -/
theorem mask_reset_loop_spec (n first : Nat) (mask : SndMask) (h : first + n ≤ SND_MASK_MAX) :
    ∃ mask', mask_reset_loop n first mask = some mask' ∧
      mask_values mask' = {v ∈ mask_values mask | ¬ (first ≤ v ∧ v < first + n)} := by
  induction n generalizing first mask with
  | zero => exact ⟨mask, rfl, by ext v; simp⟩
  | succ n ih =>
    obtain ⟨mask1, hreset, hvalues⟩ := mask_reset_spec mask first (by omega)
    obtain ⟨mask', hloop, hvalues'⟩ := ih (first + 1) mask1 (by omega)
    refine ⟨mask', by rw [mask_reset_loop, hreset, Option.bind_some, hloop], ?_⟩
    ext v
    simp only [hvalues', hvalues, Set.mem_ofPred_eq, Set.mem_sdiff, Set.mem_singleton_iff]
    constructor
    · rintro ⟨⟨hv, hne⟩, hout⟩
      exact ⟨hv, by omega⟩
    · rintro ⟨hv, hout⟩
      exact ⟨⟨hv, by omega⟩, by omega⟩

/-! ## The lowest and the highest value -/

theorem ffs_spec (v : BitVec 32) (hv : v ≠ 0#32) : IsLeast (ones v) (ffs v - 1) := by
  obtain ⟨b, hb⟩ := exists_find v hv
  have hleast := isLeast_of_find v b hb
  simpa [ffs, hb] using hleast

/-- A round takes the upper half of a word of `2 * bits` bits, if there is anything in it. -/
theorem ld2_round_spec (r : Nat) (v : BitVec 32) (bits : Nat) (hbits : 0 < bits ∧ bits < 32) (hv : v ≠ 0#32)
    (hlt : v.toNat < 2 ^ (2 * bits)) :
    (ld2_round (r, v) bits).2 ≠ 0#32 ∧ (ld2_round (r, v) bits).2.toNat < 2 ^ bits ∧
      (ld2_round (r, v) bits).1 + (ld2_round (r, v) bits).2.toNat.log2 = r + v.toNat.log2 := by
  have hpow : 2 ^ bits < 2 ^ 32 := Nat.pow_lt_pow_right (by decide) hbits.2
  have htwo : 2 ≤ 2 ^ bits := Nat.pow_le_pow_right (n := 2) (by decide) hbits.1
  have hone : (1#32 <<< bits).toNat = 2 ^ bits := by
    rw [BitVec.toNat_shiftLeft, BitVec.toNat_ofNat, Nat.shiftLeft_eq, Nat.one_mul]
    exact Nat.mod_eq_of_lt hpow
  unfold ld2_round
  split_ifs with h
  · have hge : 2 ^ bits ≤ v.toNat := by
      have := h.2
      rwa [ge_iff_le, BitVec.le_def, hone] at this
    have hshift : (v >>> bits).toNat = v.toNat / 2 ^ bits := by
      rw [BitVec.toNat_ushiftRight, Nat.shiftRight_eq_div_pow]
    have hpos : 0 < v.toNat / 2 ^ bits := Nat.div_pos hge (by omega)
    refine ⟨fun hzero => ?_, ?_, ?_⟩
    · dsimp only at hzero
      rw [hzero] at hshift
      simp at hshift
      omega
    · rw [hshift, Nat.div_lt_iff_lt_mul (by omega), ← Nat.pow_add, ← Nat.two_mul]
      exact hlt
    · have hlog := log2_div_two_pow v.toNat bits hge
      simp only [hshift]
      omega
  · refine ⟨hv, ?_, rfl⟩
    simp only [gt_iff_lt, BitVec.lt_def, ge_iff_le, BitVec.le_def, hone, not_and_or, Nat.not_lt, Nat.not_le] at h
    rcases h with h | h
    · exact lt_of_le_of_lt h htwo
    · exact h

/-- The lengths that `ld2` tries for a word of `2 ^ k` bits. -/
def halves : Nat → List Nat
  | 0 => []
  | k + 1 => 2 ^ k :: halves k

/-- The loop of `ld2` leaves 1 of the word: its sum is the logarithm. -/
theorem ld2_loop_spec (k r : Nat) (v : BitVec 32) (hk : k ≤ 5) (hv : v ≠ 0#32) (hlt : v.toNat < 2 ^ 2 ^ k) :
    ((halves k).foldl ld2_round (r, v)).2.toNat = 1 ∧
      ((halves k).foldl ld2_round (r, v)).1 = r + v.toNat.log2 := by
  induction k generalizing r v with
  | zero =>
    have hne := toNat_ne_zero v hv
    have hone : v.toNat = 1 := by omega
    have hlog : Nat.log2 1 = 0 := rfl
    simp [halves, hone, hlog]
  | succ k ih =>
    have hpow : 2 ^ k < 2 ^ 5 := Nat.pow_lt_pow_right (by decide) (by omega)
    have hpos : 0 < 2 ^ k := Nat.two_pow_pos k
    rw [Nat.pow_succ'] at hlt
    obtain ⟨hv', hlt', hlog⟩ := ld2_round_spec r v (2 ^ k) ⟨hpos, by omega⟩ hv hlt
    obtain ⟨hend, hsum⟩ := ih (ld2_round (r, v) (2 ^ k)).1 (ld2_round (r, v) (2 ^ k)).2 (by omega) hv' hlt'
    exact ⟨hend, hsum.trans hlog⟩

theorem ld2_spec (v : BitVec 32) (hv : v ≠ 0#32) : IsGreatest (ones v) (ld2 v) := by
  have hlog : ld2 v = v.toNat.log2 := by
    rw [ld2, ← Nat.zero_add v.toNat.log2]
    exact (ld2_loop_spec 5 0 v le_rfl hv v.isLt).2
  rw [hlog]
  exact isGreatest_log2 v hv

/-- What is found first in a sorted list comes before the others that could be found. -/
theorem find_first {α : Type} (R : α → α → Prop) (l : List α) (p : α → Bool) (a : α) (hsorted : l.Pairwise R)
    (h : l.find? p = some a) : ∀ b ∈ l, p b = true → b = a ∨ R a b := by
  induction l with
  | nil => simp at h
  | cons x l ih =>
    rw [List.pairwise_cons] at hsorted
    intro b hb hp
    rw [List.find?_cons] at h
    cases hx : p x with
    | true =>
      obtain rfl : x = a := by simpa [hx] using h
      rcases List.mem_cons.mp hb with rfl | hb
      · exact Or.inl rfl
      · exact Or.inr (hsorted.1 b hb)
    | false =>
      rw [hx] at h
      rcases List.mem_cons.mp hb with rfl | hb
      · simp [hx] at hp
      · exact ih hsorted.2 h b hb hp

theorem exists_first_word (mask : SndMask) (l : List (Fin 8)) (hl : ∀ w, w ∈ l)
    (h : (mask_values mask).Nonempty) :
    ∃ w, (l.find? fun w => mask.bits w ≠ 0#32) = some w ∧ mask.bits w ≠ 0#32 := by
  obtain ⟨w, hw⟩ := exists_word mask h
  have hsome : (l.find? fun w => mask.bits w ≠ 0#32).isSome = true :=
    List.find?_isSome.mpr ⟨w, hl w, by simpa using hw⟩
  obtain ⟨w', hfind⟩ := Option.isSome_iff_exists.mp hsome
  exact ⟨w', hfind, by simpa using List.find?_some hfind⟩

theorem word_ne_zero (mask : SndMask) (w : Fin 8) (b : Nat) (hb : b ∈ ones (mask.bits w)) :
    mask.bits w ≠ 0#32 := by
  intro hzero
  simp [hzero] at hb

theorem mask_get_min_spec (mask : SndMask) (h : (mask_values mask).Nonempty) :
    IsLeast (mask_values mask) (mask_get_min mask) := by
  obtain ⟨w, hfind, hw⟩ := exists_first_word mask (List.finRange 8) List.mem_finRange h
  have hfirst := find_first (· < ·) _ _ w (List.pairwise_lt_finRange 8) hfind
  obtain ⟨hmem, hleast⟩ := ffs_spec (mask.bits w) hw
  have hlt := lt_of_mem_ones _ _ hmem
  rw [mask_get_min, hfind, Option.elim_some]
  refine ⟨bit_mem mask w _ hmem, fun v hv => ?_⟩
  obtain ⟨w', hdiv, hb⟩ := (mem_mask_values mask v).mp hv
  rcases hfirst w' (List.mem_finRange w') (by simpa using word_ne_zero mask w' _ hb) with rfl | hlater
  · have := hleast hb
    omega
  · have : w.val < w'.val := hlater
    omega

theorem mask_get_max_spec (mask : SndMask) (h : (mask_values mask).Nonempty) :
    IsGreatest (mask_values mask) (mask_get_max mask) := by
  obtain ⟨w, hfind, hw⟩ := exists_first_word mask (List.finRange 8).reverse (by simp) h
  have hsorted : (List.finRange 8).reverse.Pairwise (· > ·) :=
    List.pairwise_reverse.mpr (List.pairwise_lt_finRange 8)
  have hfirst := find_first (· > ·) _ _ w hsorted hfind
  obtain ⟨hmem, hgreatest⟩ := ld2_spec (mask.bits w) hw
  have hlt := lt_of_mem_ones _ _ hmem
  rw [mask_get_max, hfind, Option.elim_some]
  refine ⟨bit_mem mask w _ hmem, fun v hv => ?_⟩
  obtain ⟨w', hdiv, hb⟩ := (mem_mask_values mask v).mp hv
  have hlt' := lt_of_mem_ones _ _ hb
  rcases hfirst w' (by simp) (by simpa using word_ne_zero mask w' _ hb) with rfl | hlater
  · have := hgreatest hb
    omega
  · have : w'.val < w.val := hlater
    omega

/-! ## Masks of one value -/

theorem mask_is_single_loop_spec (words : List (BitVec 32)) (c : Nat) :
    mask_is_single_loop words c = true ↔
      (∀ v ∈ words, v ≠ 0#32 → ∃ b, ones v = {b}) ∧ words.Pairwise (fun u v => u = 0#32 ∨ v = 0#32) ∧
        (c ≠ 0 → ∀ v ∈ words, v = 0#32) := by
  induction words generalizing c with
  | nil => simp [mask_is_single_loop]
  | cons v rest ih =>
    rw [mask_is_single_loop, List.pairwise_cons, List.forall_mem_cons, List.forall_mem_cons]
    split_ifs with hzero hbits hc
    · rw [ih]
      simp [hzero]
    · have hmany := mt (and_sub_one_eq_zero v hzero).mpr hbits
      simp [hzero, hmany]
    · simp [hc, hzero]
    · have hone := (and_sub_one_eq_zero v hzero).mp (not_not.mp hbits)
      have hc0 : c = 0 := not_not.mp hc
      rw [ih]
      simp [hzero, hone, hc0]
      tauto

theorem mask_is_single_iff (mask : SndMask) (h : (mask_values mask).Nonempty) :
    mask_is_single mask = true ↔ ∃ v, mask_values mask = {v} := by
  obtain ⟨w, hw⟩ := exists_word mask h
  rw [mask_is_single, mask_is_single_loop_spec, List.pairwise_ofFn]
  simp only [List.forall_mem_ofFn_iff]
  constructor
  · rintro ⟨hone, hpair, -⟩
    obtain ⟨b, hb⟩ := hone w hw
    refine ⟨b + 32 * w.val, Set.eq_singleton_iff_unique_mem.mpr ⟨bit_mem mask w b (by simp [hb]), ?_⟩⟩
    intro v hv
    obtain ⟨w', hdiv, hmem⟩ := (mem_mask_values mask v).mp hv
    have hw' := word_ne_zero mask w' _ hmem
    obtain rfl : w' = w := by
      rcases lt_trichotomy w' w with hlt | heq | hgt
      · exact absurd (hpair hlt) (by simp [hw, hw'])
      · exact heq
      · exact absurd (hpair hgt) (by simp [hw, hw'])
    rw [hb, Set.mem_singleton_iff] at hmem
    omega
  · rintro ⟨v, hv⟩
    have hunique : ∀ w b, b ∈ ones (mask.bits w) → b + 32 * w.val = v := fun w b hb => by
      have hmem := bit_mem mask w b hb
      rwa [hv, Set.mem_singleton_iff] at hmem
    refine ⟨fun w hw => ?_, fun i j hlt => ?_, by simp⟩
    · obtain ⟨b, hb⟩ := Set.nonempty_iff_ne_empty.mpr (mt (ones_eq_empty _).mp hw)
      refine ⟨b, Set.eq_singleton_iff_unique_mem.mpr ⟨hb, fun c hc => ?_⟩⟩
      have h1 := hunique w b hb
      have h2 := hunique w c hc
      omega
    · by_contra hboth
      push Not at hboth
      obtain ⟨b, hb⟩ := Set.nonempty_iff_ne_empty.mpr (mt (ones_eq_empty _).mp hboth.1)
      obtain ⟨c, hc⟩ := Set.nonempty_iff_ne_empty.mpr (mt (ones_eq_empty _).mp hboth.2)
      have h1 := hunique i b hb
      have h2 := hunique j c hc
      have hb' := lt_of_mem_ones _ _ hb
      have hc' := lt_of_mem_ones _ _ hc
      have : i.val < j.val := hlt
      omega

/-! ## Refinement -/

/-- A refinement of `mask` leaves the set `s`, and returns whether it did any work. -/
def RefinesTo (mask : SndMask) (r : Option (Int × SndMask)) (s : Set Nat) : Prop :=
  ∃ ret mask', r = some (ret, mask') ∧ mask_values mask' = s ∧
    (ret = -ENOENT ↔ mask_values mask = ∅) ∧
    (ret = -EINVAL ↔ mask_values mask ≠ ∅ ∧ s = ∅) ∧
    (ret = 0 ↔ mask_values mask ≠ ∅ ∧ s ≠ ∅ ∧ s = mask_values mask) ∧
    (ret = 1 ↔ mask_values mask ≠ ∅ ∧ s ≠ ∅ ∧ s ⊂ mask_values mask)

theorem refinesTo_of_empty (mask : SndMask) (s : Set Nat) (hempty : mask_is_empty mask = true)
    (hs : s ⊆ mask_values mask) : RefinesTo mask (some (-ENOENT, mask)) s := by
  have hvalues := (mask_is_empty_iff mask).mp hempty
  have hsempty : s = ∅ := Set.subset_empty_iff.mp (hvalues ▸ hs)
  exact ⟨_, _, rfl, by rw [hvalues, hsempty], by simp [hvalues], by simp [hvalues, ENOENT, EINVAL],
    by simp [hvalues, ENOENT], by simp [hvalues, ENOENT]⟩

theorem refinesTo_of_same (mask : SndMask) (s : Set Nat) (hempty : ¬ mask_is_empty mask = true)
    (hs : s = mask_values mask) : RefinesTo mask (some (0, mask)) s := by
  have hvalues := mt (mask_is_empty_iff mask).mpr hempty
  exact ⟨_, _, rfl, hs.symm, by simp [hvalues, ENOENT], by simp [hvalues, hs, EINVAL], by simp [hvalues, hs],
    by simp [hs]⟩

theorem refinesTo_of_part (mask : SndMask) (s : Set Nat) (r : Option SndMask) (hempty : ¬ mask_is_empty mask = true)
    (hr : ∃ mask', r = some mask' ∧ mask_values mask' = s) (hs : s ⊂ mask_values mask) :
    RefinesTo mask (r.map fun mask => (if mask_is_empty mask then -EINVAL else 1, mask)) s := by
  have hvalues := mt (mask_is_empty_iff mask).mpr hempty
  obtain ⟨mask', rfl, hs'⟩ := hr
  refine ⟨_, mask', rfl, hs', ?_⟩
  by_cases hleft : s = ∅
  · rw [if_pos ((mask_is_empty_iff mask').mpr (hs'.trans hleft))]
    simp [hvalues, hleft, ENOENT, EINVAL]
  · rw [if_neg fun he => hleft (hs'.symm.trans ((mask_is_empty_iff mask').mp he))]
    simp [hvalues, hleft, hs, hs.ne, ENOENT, EINVAL]

theorem ssubset_of_not_mem (s t : Set Nat) (v : Nat) (h : s ⊆ t) (ht : v ∈ t) (hs : v ∉ s) : s ⊂ t :=
  ⟨h, fun hle => hs (hle ht)⟩

theorem nonempty_of_not_empty (mask : SndMask) (h : ¬ mask_is_empty mask = true) :
    (mask_values mask).Nonempty :=
  Set.nonempty_iff_ne_empty.mpr (mt (mask_is_empty_iff mask).mpr h)

theorem snd_mask_refine_min_sets (mask : SndMask) (val : Nat) (hval : val < SND_MASK_MAX) :
    RefinesTo mask (snd_mask_refine_min mask val) {v ∈ mask_values mask | v ≥ val} := by
  unfold snd_mask_refine_min
  split_ifs with hempty hmin
  · exact refinesTo_of_empty mask _ hempty (Set.sep_subset _ _)
  · obtain ⟨-, hleast⟩ := mask_get_min_spec mask (nonempty_of_not_empty mask hempty)
    refine refinesTo_of_same mask _ hempty (Set.sep_eq_self_iff_mem_true.mpr fun v hv => ?_)
    exact le_trans hmin (hleast hv)
  · obtain ⟨hmem, -⟩ := mask_get_min_spec mask (nonempty_of_not_empty mask hempty)
    obtain ⟨mask', hloop, hvalues⟩ := mask_reset_loop_spec (val - 1 + 1 - 0) 0 mask (by omega)
    refine refinesTo_of_part mask _ (mask_reset_range mask 0 (val - 1)) hempty ⟨mask', hloop, ?_⟩ ?_
    · rw [hvalues]
      ext v
      simp only [Set.mem_ofPred_eq]
      exact and_congr_right fun _ => by omega
    · exact ssubset_of_not_mem _ _ _ (Set.sep_subset _ _) hmem fun hin => hmin hin.2

theorem snd_mask_refine_max_sets (mask : SndMask) (val : Nat) (hval : val < SND_MASK_MAX) :
    RefinesTo mask (snd_mask_refine_max mask val) {v ∈ mask_values mask | v ≤ val} := by
  unfold snd_mask_refine_max
  split_ifs with hempty hmax
  · exact refinesTo_of_empty mask _ hempty (Set.sep_subset _ _)
  · obtain ⟨-, hgreatest⟩ := mask_get_max_spec mask (nonempty_of_not_empty mask hempty)
    refine refinesTo_of_same mask _ hempty (Set.sep_eq_self_iff_mem_true.mpr fun v hv => ?_)
    exact le_trans (hgreatest hv) hmax
  · obtain ⟨hmem, -⟩ := mask_get_max_spec mask (nonempty_of_not_empty mask hempty)
    obtain ⟨mask', hloop, hvalues⟩ :=
      mask_reset_loop_spec (SND_MASK_MAX - 1 + 1 - (val + 1)) (val + 1) mask (by omega)
    refine refinesTo_of_part mask _ (mask_reset_range mask (val + 1) (SND_MASK_MAX - 1)) hempty
      ⟨mask', hloop, ?_⟩ ?_
    · rw [hvalues]
      ext v
      simp only [Set.mem_ofPred_eq]
      refine and_congr_right fun hv => ?_
      have := mem_lt mask v hv
      omega
    · exact ssubset_of_not_mem _ _ _ (Set.sep_subset _ _) hmem fun hin => hmax hin.2

theorem snd_mask_refine_set_sets (mask : SndMask) (val : Nat) (hval : val < SND_MASK_MAX) :
    RefinesTo mask (snd_mask_refine_set mask val) (mask_values mask ∩ {val}) := by
  unfold snd_mask_refine_set
  by_cases hempty : mask_is_empty mask = true
  · rw [if_pos hempty]
    exact refinesTo_of_empty mask _ hempty Set.inter_subset_left
  rw [if_neg hempty]
  have hvalues := nonempty_of_not_empty mask hempty
  obtain ⟨mask', hleave, hleft⟩ := mask_leave_single_spec mask val hval
  by_cases hsame : mask_values mask ∩ {val} = mask_values mask
  · -- The value is the only one.
    have hsingle : mask_values mask = {val} :=
      (Set.subset_singleton_iff_eq.mp (Set.inter_eq_left.mp hsame)).resolve_left hvalues.ne_empty
    have hbool : mask_is_single mask = true := (mask_is_single_iff mask hvalues).mpr ⟨val, hsingle⟩
    refine ⟨_, mask', by rw [hleave]; rfl, hleft, ?_⟩
    rw [if_neg fun he => hvalues.ne_empty (hsame ▸ hleft ▸ (mask_is_empty_iff mask').mp he)]
    simp [hbool, hsame, hvalues.ne_empty, ENOENT, EINVAL]
  · have hpart : mask_values mask ∩ {val} ⊂ mask_values mask := ⟨Set.inter_subset_left, fun hle => hsame
      (Set.Subset.antisymm Set.inter_subset_left hle)⟩
    have hspec := refinesTo_of_part mask _ (mask_leave_single mask val) hempty ⟨mask', hleave, hleft⟩ hpart
    by_cases hnone : mask_values mask ∩ {val} = ∅
    · have he : mask_is_empty mask' = true := (mask_is_empty_iff mask').mpr (hleft.trans hnone)
      simpa [hleave, he] using hspec
    · -- More than the value were there, so the mask was not of one value.
      have hmem : val ∈ mask_values mask := by
        obtain ⟨v, hv, rfl⟩ := Set.nonempty_iff_ne_empty.mpr hnone
        exact hv
      have hmany : mask_is_single mask = false := by
        rw [← Bool.not_eq_true, mask_is_single_iff mask hvalues]
        rintro ⟨v, hv⟩
        obtain rfl : val = v := by simpa [hv] using hmem
        exact hsame (by rw [hv, Set.inter_self])
      simpa [hleave, hmany] using hspec

/-- The mask keeps one value of its own. -/
theorem leave_single_sets (mask : SndMask) (val : Nat) (hempty : ¬ mask_is_empty mask = true)
    (hsingle : ¬ mask_is_single mask = true) (hmem : val ∈ mask_values mask) :
    RefinesTo mask ((mask_leave_single mask val).map fun mask => (1, mask)) {val} := by
  have hvalues := nonempty_of_not_empty mask hempty
  obtain ⟨mask', hleave, hleft⟩ := mask_leave_single_spec mask val (mem_lt mask val hmem)
  rw [Set.inter_eq_right.mpr (Set.singleton_subset_iff.mpr hmem)] at hleft
  have hne : {val} ≠ mask_values mask := fun heq =>
    hsingle ((mask_is_single_iff mask hvalues).mpr ⟨val, heq.symm⟩)
  have hpart : {val} ⊂ mask_values mask := (Set.singleton_subset_iff.mpr hmem).ssubset_of_ne hne
  refine ⟨1, mask', by rw [hleave]; rfl, hleft, ?_⟩
  simp [hvalues.ne_empty, hne, hpart, ENOENT, EINVAL]

theorem snd_mask_refine_first_sets (mask : SndMask) :
    RefinesTo mask (snd_mask_refine_first mask) {v | IsLeast (mask_values mask) v} := by
  unfold snd_mask_refine_first
  split_ifs with hempty hsingle
  · exact refinesTo_of_empty mask _ hempty fun v hv => hv.1
  · obtain ⟨v, hv⟩ := (mask_is_single_iff mask (nonempty_of_not_empty mask hempty)).mp hsingle
    refine refinesTo_of_same mask _ hempty ?_
    ext u
    simp only [hv, Set.mem_ofPred_eq, isLeast_singleton.isLeast_iff_eq, Set.mem_singleton_iff, eq_comm]
  · have hleast := mask_get_min_spec mask (nonempty_of_not_empty mask hempty)
    have hset : {v | IsLeast (mask_values mask) v} = {mask_get_min mask} := by
      ext v
      exact ⟨fun hv => hv.unique hleast, fun hv => hv ▸ hleast⟩
    rw [hset]
    exact leave_single_sets mask _ hempty hsingle hleast.1

theorem snd_mask_refine_last_sets (mask : SndMask) :
    RefinesTo mask (snd_mask_refine_last mask) {v | IsGreatest (mask_values mask) v} := by
  unfold snd_mask_refine_last
  split_ifs with hempty hsingle
  · exact refinesTo_of_empty mask _ hempty fun v hv => hv.1
  · obtain ⟨v, hv⟩ := (mask_is_single_iff mask (nonempty_of_not_empty mask hempty)).mp hsingle
    refine refinesTo_of_same mask _ hempty ?_
    ext u
    simp only [hv, Set.mem_ofPred_eq, isGreatest_singleton.isGreatest_iff_eq, Set.mem_singleton_iff, eq_comm]
  · have hgreatest := mask_get_max_spec mask (nonempty_of_not_empty mask hempty)
    have hset : {v | IsGreatest (mask_values mask) v} = {mask_get_max mask} := by
      ext v
      exact ⟨fun hv => hv.unique hgreatest, fun hv => hv ▸ hgreatest⟩
    rw [hset]
    exact leave_single_sets mask _ hempty hsingle hgreatest.1

/-- Every refinement of a mask leaves the set that it is named after. -/
theorem mask_refinement (mask : SndMask) (val : Nat) (hval : val < SND_MASK_MAX) :
    RefinesTo mask (snd_mask_refine_min mask val) {v ∈ mask_values mask | v ≥ val} ∧
      RefinesTo mask (snd_mask_refine_max mask val) {v ∈ mask_values mask | v ≤ val} ∧
      RefinesTo mask (snd_mask_refine_set mask val) (mask_values mask ∩ {val}) ∧
      RefinesTo mask (snd_mask_refine_first mask) {v | IsLeast (mask_values mask) v} ∧
      RefinesTo mask (snd_mask_refine_last mask) {v | IsGreatest (mask_values mask) v} ∧
      ((mask_values mask).Nonempty →
        IsLeast (mask_values mask) (mask_get_min mask) ∧ IsGreatest (mask_values mask) (mask_get_max mask) ∧
          (mask_is_single mask = true ↔ ∃ v, mask_values mask = {v})) :=
  ⟨snd_mask_refine_min_sets mask val hval, snd_mask_refine_max_sets mask val hval,
    snd_mask_refine_set_sets mask val hval, snd_mask_refine_first_sets mask, snd_mask_refine_last_sets mask,
    fun h => ⟨mask_get_min_spec mask h, mask_get_max_spec mask h, mask_is_single_iff mask h⟩⟩

/-- The word of the lowest values is empty. -/
theorem mask_refinement_second_word :
    let mask : SndMask := ⟨fun w => if w = 1 then 5#32 else 0#32⟩
    RefinesTo mask (snd_mask_refine_min mask 33) {v ∈ mask_values mask | v ≥ 33} :=
  (mask_refinement ⟨fun w => if w = 1 then 5#32 else 0#32⟩ 33 (by decide)).1

end Salsa.HwParams
