import Salsa.Tlv.Outcomes
import Salsa.Tlv.Ranges

/-!
# DB_RANGE of DB_SCALE entries

The layout of a DB_RANGE block whose entries ascend in volumes and gains, and what its gains say about
the volumes they come from.
-/

namespace Salsa.Tlv

open CInt

def entry_min (tlv : Words) (k : Nat) : Int := (tlv.word (2 + 6 * k)).toInt

def entry_max (tlv : Words) (k : Nat) : Int := (tlv.word (2 + 6 * k + 1)).toInt

def entry_block (tlv : Words) (k : Nat) : Words := tlv.skip (2 + 6 * k + 2)

/-- A DB_RANGE block of `n` DB_SCALE entries, on contiguous ranges that ascend with their gains. The
data of a DB_SCALE block is two words. -/
structure IsScaleRange (tlv : Words) (n : Nat) (rangemin rangemax : Int) : Prop where
  type : tlv.word 0 = SND_CTL_TLVT_DB_RANGE
  size : tlv.size = 2 + 6 * n
  length : int_index (tlv.word 1) = 6 * n
  limit : 6 * n ≤ MAX_TLV_RANGE_SIZE
  entries : 0 < n
  scale : ∀ k < n, tlv.word (2 + 6 * k + 2) = SND_CTL_TLVT_DB_SCALE ∧ tlv.word (2 + 6 * k + 3) = 8#32
  step : ∀ k < n, 1 ≤ block_step (entry_block tlv k)
  wide : ∀ k < n, entry_min tlv k < entry_max tlv k
  next : ∀ k, k + 1 < n → entry_min tlv (k + 1) = entry_max tlv k + 1
  rising : ∀ k, k + 1 < n →
    scale_top (entry_block tlv k) (entry_min tlv k) (entry_max tlv k) < block_low (entry_block tlv (k + 1))
  bottom : entry_min tlv 0 = rangemin
  top : entry_max tlv (n - 1) = rangemax

section Layout

variable {tlv : Words} {n : Nat} {rangemin rangemax : Int} (h : IsScaleRange tlv n rangemin rangemax)

include h

theorem entry_type (k : Nat) (hk : k < n) : (entry_block tlv k).word 0 = SND_CTL_TLVT_DB_SCALE :=
  (h.scale k hk).1

theorem entry_min_add (i d : Nat) (hd : i + d < n) : entry_min tlv i + 2 * d ≤ entry_min tlv (i + d) := by
  induction d with
  | zero => simp
  | succ d ih =>
    have hwide := h.wide (i + d) (by omega)
    have hnext := h.next (i + d) hd
    have hle := ih (by omega)
    rw [← Nat.add_assoc]
    omega

theorem second_min_add (k : Nat) (hk : k + 1 < n) : entry_min tlv 1 + 2 * k ≤ entry_min tlv (k + 1) := by
  have hle := entry_min_add h 1 k (by omega)
  rw [Nat.add_comm 1 k] at hle
  exact hle

theorem entry_max_le (k : Nat) (hk : k < n) : entry_max tlv k ≤ rangemax := by
  have hle := entry_min_add h k (n - 1 - k) (by omega)
  have hwide := h.wide (n - 1) (by omega)
  have htop := h.top
  rw [show k + (n - 1 - k) = n - 1 by omega] at hle
  rcases Nat.lt_or_ge (k + 1) n with hlt | hge
  · have hnext := h.next k hlt
    have hlast := entry_min_add h (k + 1) (n - 1 - (k + 1)) (by omega)
    rw [show k + 1 + (n - 1 - (k + 1)) = n - 1 by omega] at hlast
    omega
  · have hk' : k = n - 1 := by omega
    rw [hk', htop]

/-- The top of an entry is above its minimum by a step for each volume. -/
theorem entry_top (k : Nat) (hk : k < n) :
    block_min (entry_block tlv k) + block_step (entry_block tlv k) ≤
      scale_top (entry_block tlv k) (entry_min tlv k) (entry_max tlv k) := by
  have hstep := h.step k hk
  have hwide := h.wide k hk
  have hproduct : block_step (entry_block tlv k) * 1 ≤
      block_step (entry_block tlv k) * (entry_max tlv k - entry_min tlv k) :=
    mul_le_mul_of_nonneg_left (by omega) (by omega)
  rw [scale_top]
  omega

/-- Behind gains above 0 no entry is mute at its bottom. -/
theorem entry_rises (k : Nat) (hk : k + 1 < n) (hmin : 1 ≤ block_min (entry_block tlv k)) :
    mutes (entry_block tlv (k + 1)) = false ∧
      scale_top (entry_block tlv k) (entry_min tlv k) (entry_max tlv k) < block_min (entry_block tlv (k + 1)) := by
  have hrising := h.rising k hk
  have htop := entry_top h k (by omega)
  have hstep := h.step k (by omega)
  rw [block_low] at hrising
  split_ifs at hrising with hmute
  · simp only [SND_CTL_TLV_DB_GAIN_MUTE] at hrising
    omega
  · exact ⟨by simpa using hmute, hrising⟩

section Positive

variable (hpos : 1 ≤ block_min (entry_block tlv 0))

include hpos

theorem entry_gain_pos (k : Nat) (hk : k < n) : 1 ≤ block_min (entry_block tlv k) := by
  induction k with
  | zero => exact hpos
  | succ k ih =>
    have hmin := ih (by omega)
    obtain ⟨-, hrise⟩ := entry_rises h k hk hmin
    have htop := entry_top h k (by omega)
    have hstep := h.step k (by omega)
    omega

theorem entry_gain_add (i d : Nat) (hd : i + d < n) :
    block_min (entry_block tlv i) + 2 * d ≤ block_min (entry_block tlv (i + d)) := by
  induction d with
  | zero => simp
  | succ d ih =>
    have hle := ih (by omega)
    obtain ⟨-, hrise⟩ := entry_rises h (i + d) hd (entry_gain_pos h hpos (i + d) (by omega))
    have htop := entry_top h (i + d) (by omega)
    have hstep := h.step (i + d) (by omega)
    rw [← Nat.add_assoc]
    omega

end Positive

theorem entry_size (k : Nat) (hk : k < n) : 4 ≤ (entry_block tlv k).size := by
  have hsize : (entry_block tlv k).size = tlv.size - (2 + 6 * k + 2) := rfl
  have htlv := h.size
  omega

theorem entry_next (k : Nat) (hk : k < n) : 2 + 6 * k + 4 + int_index (tlv.word (2 + 6 * k + 3)) = 2 + 6 * (k + 1) := by
  have hindex : int_index (8#32) = 2 := by decide
  rw [(h.scale k hk).2, hindex]
  omega

/-- A gain comes off the entry of its volume. -/
theorem to_dB_range_loop_ok (fuel k : Nat) (volume gain : Int)
    (hgain : to_dB_range_loop fuel tlv (6 * n) (2 + 6 * k) volume = .ok (0, some gain)) :
    ∃ j < n, volume ∈ Set.Icc (entry_min tlv j) (entry_max tlv j) ∧
      gain = scale_gain (entry_block tlv j) (entry_min tlv j) volume := by
  induction fuel generalizing k with
  | zero => cases hgain
  | succ fuel ih =>
    by_cases hpos : 2 + 6 * k + 4 ≤ 6 * n
    · have hk : k < n := by omega
      have hsize := entry_size h k hk
      by_cases hvolume : volume ∈ Set.Icc (entry_min tlv k) (entry_max tlv k)
      · refine ⟨k, hk, hvolume, ?_⟩
        rw [to_dB_range_loop_found fuel tlv _ _ hsize hpos volume hvolume] at hgain
        cases fuel with
        | zero => cases hgain
        | succ fuel =>
          change convert_to_dB (fuel + 1) (entry_block tlv k) (entry_min tlv k) (entry_max tlv k) volume = _ at hgain
          rw [convert_to_dB_scale _ _ _ _ _ ⟨hsize, entry_type h k hk⟩] at hgain
          have heq := tlv_to_dB_scale_ok _ _ _ _ _ hgain
          injection heq with _ heq
          injection heq
      · rw [to_dB_range_loop_next fuel tlv _ _ hsize hpos volume hvolume, entry_next h k hk] at hgain
        exact ih (k + 1) hgain
    · rw [to_dB_range_loop, if_neg hpos] at hgain
      cases hgain

theorem range_to_dB_ok (volume gain : Int)
    (hgain : snd_tlv_convert_to_dB tlv rangemin rangemax volume = .ok (0, some gain)) :
    ∃ j < n, volume ∈ Set.Icc (entry_min tlv j) (entry_max tlv j) ∧
      gain = scale_gain (entry_block tlv j) (entry_min tlv j) volume := by
  have hsize := h.size
  have hlimit := h.limit
  unfold snd_tlv_convert_to_dB convert_to_dB at hgain
  rw [tlv.read_ok 0 (by omega), h.type, tlv.read_ok 1 (by omega)] at hgain
  simp only [ok_bind, h.length] at hgain
  rw [if_pos trivial, if_neg (by omega)] at hgain
  exact to_dB_range_loop_ok h _ 0 volume gain hgain

end Layout

/-! ## The two gains at the bottom of the second entry -/

def first_gain (tlv : Words) : Int := block_min (entry_block tlv 1)

def second_gain (tlv : Words) : Int := first_gain tlv + block_step (entry_block tlv 1)

section Gains

variable {tlv : Words} {n : Nat} {rangemin rangemax : Int} (h : IsScaleRange tlv n rangemin rangemax)
  (hn : 1 < n) (hpos : 1 ≤ block_min (entry_block tlv 0))

include h hpos

theorem first_gain_add (k : Nat) (hk : k + 1 < n) : first_gain tlv + 2 * k ≤ block_min (entry_block tlv (k + 1)) := by
  have hle := entry_gain_add h hpos 1 k (by omega)
  rw [Nat.add_comm k 1, first_gain]
  exact hle

theorem second_gain_below (k : Nat) (hk : k + 2 < n) : second_gain tlv < block_min (entry_block tlv (k + 2)) := by
  have htop := entry_top h 1 (by omega)
  have hrise : scale_top (entry_block tlv 1) (entry_min tlv 1) (entry_max tlv 1) < block_min (entry_block tlv 2) :=
    (entry_rises h 1 (by omega) (entry_gain_pos h hpos 1 (by omega))).2
  have hle := entry_gain_add h hpos 2 k (by omega)
  rw [Nat.add_comm k 2, second_gain, first_gain]
  omega

include hn

theorem first_gain_rises : mutes (entry_block tlv 1) = false ∧
    scale_top (entry_block tlv 0) (entry_min tlv 0) (entry_max tlv 0) < first_gain tlv :=
  entry_rises h 0 hn hpos

theorem first_gain_above : 2 + block_step (entry_block tlv 0) ≤ first_gain tlv := by
  have htop := entry_top h 0 (by omega)
  obtain ⟨-, hrise⟩ := first_gain_rises h hn hpos
  omega

theorem three_le_first_gain : 3 ≤ first_gain tlv := by
  have habove := first_gain_above h hn hpos
  have hstep := h.step 0 (by omega)
  omega

/-- The gain `d` steps up in the second entry is a gain of no other volume. -/
theorem gain_injective (v d : Int) (hd : d ∈ Set.Icc (0 : Int) 1)
    (hgain : snd_tlv_convert_to_dB tlv rangemin rangemax v =
      .ok (0, some (first_gain tlv + d * block_step (entry_block tlv 1)))) : v = entry_min tlv 1 + d := by
  obtain ⟨hd0, hd1⟩ := hd
  have hstep := h.step 1 hn
  have hproduct : d * block_step (entry_block tlv 1) ≤ 1 * block_step (entry_block tlv 1) :=
    mul_le_mul_of_nonneg_right hd1 (by omega)
  have hproduct0 : 0 ≤ d * block_step (entry_block tlv 1) := mul_nonneg hd0 (by omega)
  obtain ⟨j, hj, ⟨hlow, hhigh⟩, hgain⟩ := range_to_dB_ok h v _ hgain
  have habove := first_gain_above h hn hpos
  have hstep0 := h.step 0 (by omega)
  have hdist : 0 ≤ v - entry_min tlv j := by omega
  match j with
  | 0 =>
    obtain ⟨-, hrise⟩ := first_gain_rises h hn hpos
    have hle := (steps_bounds (entry_block tlv 0) _ _ v ⟨hlow, hhigh⟩).2
    rw [scale_top] at hrise
    rw [scale_gain] at hgain
    split_ifs at hgain
    · simp only [SND_CTL_TLV_DB_GAIN_MUTE] at hgain
      omega
    · omega
  | 1 =>
    obtain ⟨hmute, -⟩ := first_gain_rises h hn hpos
    rw [mutes, if_pos (entry_type h 1 hn)] at hmute
    rw [scale_gain, hmute, if_neg (by simp), first_gain] at hgain
    have heq : d = v - entry_min tlv 1 :=
      mul_right_cancel₀ (by omega : block_step (entry_block tlv 1) ≠ 0) (by omega)
    omega
  | k + 2 =>
    have hbelow := second_gain_below h hpos k hj
    have hstepk := h.step (k + 2) hj
    obtain ⟨hmute, -⟩ := entry_rises h (k + 1) hj (entry_gain_pos h hpos (k + 1) (by omega))
    have hnonneg : 0 ≤ (v - entry_min tlv (k + 2)) * block_step (entry_block tlv (k + 2)) :=
      mul_nonneg hdist (by omega)
    rw [mutes, if_pos (entry_type h (k + 2) hj)] at hmute
    rw [scale_gain, hmute, if_neg (by simp)] at hgain
    rw [second_gain] at hbelow
    omega

theorem gain_of_second (d gain : Int) (hd : d ∈ Set.Icc (0 : Int) 1)
    (hgain : snd_tlv_convert_to_dB tlv rangemin rangemax (entry_min tlv 1 + d) = .ok (0, some gain)) :
    gain = first_gain tlv + d * block_step (entry_block tlv 1) := by
  obtain ⟨hd0, hd1⟩ := hd
  obtain ⟨j, hj, ⟨hlow, hhigh⟩, hgain⟩ := range_to_dB_ok h _ _ hgain
  match j with
  | 0 =>
    have hnext : entry_min tlv 1 = entry_max tlv 0 + 1 := h.next 0 hn
    omega
  | 1 =>
    obtain ⟨hmute, -⟩ := first_gain_rises h hn hpos
    rw [mutes, if_pos (entry_type h 1 hn)] at hmute
    rw [scale_gain, hmute, if_neg (by simp)] at hgain
    rw [hgain, first_gain, add_sub_cancel_left, add_comm]
  | k + 2 =>
    have hmin : _ ≤ entry_min tlv (k + 2) := second_min_add h (k + 1) hj
    omega

end Gains

end Salsa.Tlv
