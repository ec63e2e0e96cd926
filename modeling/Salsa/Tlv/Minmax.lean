import Salsa.Tlv.Blocks
import Mathlib.Tactic.Ring

/-!
# DB_MINMAX

Both conversions round down by default, so a volume comes back through its gain only where one of
them has nothing to round.
-/

namespace Salsa.Tlv

open CInt Rounding

def IsMinmaxBlock (tlv : Words) : Prop :=
  IsBlock tlv SND_CTL_TLVT_DB_MINMAX ∨ IsBlock tlv SND_CTL_TLVT_DB_MINMAX_MUTE

/-- A block whose gains are those that TLVs have, and which has one at least for each volume. -/
structure IsMinmax (tlv : Words) (rangemin rangemax : Int) : Prop where
  block : IsMinmaxBlock tlv
  bottom : IsLong rangemin
  top : IsLong rangemax
  range : rangemin < rangemax
  min : SND_CTL_TLV_DB_GAIN_MUTE ≤ block_min tlv
  max : block_max tlv ≤ 9999999
  fine : rangemax - rangemin ≤ block_max tlv - block_min tlv

/-- Down and back down, by the truncated share of `width`. -/
theorem floor_floor (width range n : Int) (hrange : 0 < range) (hfine : range ≤ width) :
    width * n / range * range / width = n ↔ range ∣ width * n := by
  obtain ⟨hlow, -⟩ := floor_bounds (width * n) range hrange
  constructor
  · intro h
    have hle : n * width ≤ width * n / range * range := by
      rw [← Int.le_ediv_iff_mul_le (by omega), h]
    rw [mul_comm] at hle
    exact ⟨width * n / range, by rw [mul_comm range]; omega⟩
  · intro h
    rw [Int.ediv_mul_cancel h, Int.mul_ediv_cancel_left _ (by omega)]

/-- Down and back up. -/
theorem ceil_floor (width range n : Int) (hrange : 0 < range) (hfine : range ≤ width) :
    (width * n / range * range + (width - 1)) / width = n := by
  obtain ⟨hlow, hhigh⟩ := floor_bounds (width * n) range hrange
  apply le_antisymm
  · rw [ceil_le_iff _ _ _ (by omega), mul_comm n]
    exact hlow
  · by_contra hlt
    have hle := (ceil_le_iff (width * n / range * range) width (n - 1) (by omega)).mp (by omega)
    have h1 : (n - 1) * width = width * n - width := by ring
    have h2 : (width * n / range + 1) * range = width * n / range * range + range := by ring
    omega

section RoundTrip

variable (tlv : Words) (rangemin rangemax volume xdir : Int) (h : IsMinmax tlv rangemin rangemax)

include h

theorem minmax_to_dB :
    snd_tlv_convert_to_dB tlv rangemin rangemax volume =
      .ok (0, some (minmax_gain tlv rangemin rangemax volume)) := by
  have hrange := h.range
  have hfine := h.fine
  have hmin := h.min
  have hmax := h.max
  simp only [SND_CTL_TLV_DB_GAIN_MUTE] at hmin
  rw [snd_tlv_convert_to_dB, convert_to_dB_minmax _ _ _ _ _ h.block]
  by_cases hend : rangemin < volume ∧ volume < rangemax
  · have hproduct : 0 ≤ (block_max tlv - block_min tlv) * (volume - rangemin) :=
      mul_nonneg (by omega) (by omega)
    have hproduct' : (block_max tlv - block_min tlv) * (volume - rangemin) ≤ 19999998 * 19999998 :=
      mul_le_mul (by omega) (by omega) (by omega) (by omega)
    rw [tlv_to_dB_minmax_between tlv _ _ _ (minmax_size tlv h.block) hend.1 hend.2 ⟨by omega, by omega⟩ (by omega)
      ⟨by omega, by omega⟩, IsLong.ok ⟨by omega, by omega⟩, ok_bind]
    rfl
  · exact tlv_to_dB_minmax_end tlv _ _ _ (minmax_size tlv h.block) hend

theorem minmax_from_dB (db_gain : Int) :
    snd_tlv_convert_from_dB tlv rangemin rangemax db_gain xdir =
      .ok (0, some (gain_volume rangemin rangemax db_gain xdir (block_min tlv) (block_max tlv)
        (tlv.word 0 == SND_CTL_TLVT_DB_MINMAX_MUTE))) := by
  have hsize := minmax_size tlv h.block
  have hrange := h.range
  have hfine := h.fine
  have hmin := h.min
  have hmax := h.max
  simp only [SND_CTL_TLV_DB_GAIN_MUTE] at hmin
  have hnext : IsLong (rangemin + 1) := ⟨by have := h.bottom.1; omega, by have := h.top.2; omega⟩
  rw [snd_tlv_convert_from_dB, convert_from_dB_minmax _ _ _ _ _ _ h.block, tlv_from_dB_minmax,
    tlv.read_ok 2 (by omega), tlv.read_ok 3 (by omega), tlv.read_ok 0 (by omega)]
  simp only [ok_bind]
  rw [← block_min, ← block_max, _tlv_from_dB_minmax_eq _ _ _ _ _ _ _ h.bottom h.top (by omega) (by omega) hnext
    (fun _ _ => by omega), ok_bind]
  rfl

/-- The gain of the bottom goes back to the bottom. -/
theorem minmax_bottom_back : gain_volume rangemin rangemax (minmax_bottom tlv) xdir (block_min tlv) (block_max tlv)
    (tlv.word 0 == SND_CTL_TLVT_DB_MINMAX_MUTE) = rangemin := by
  have hmin := h.min
  rw [minmax_bottom]
  split_ifs with hmute
  · rw [gain_volume, if_pos hmin, if_neg (by omega)]
  · rw [gain_volume, if_pos le_rfl, if_neg fun hrule => hmute (beq_iff_eq.mp hrule.2.2)]

/-- The volume that the gain of a volume goes back to. -/
theorem minmax_back_iff (hvolume : volume ∈ Set.Icc rangemin rangemax) :
    gain_volume rangemin rangemax (minmax_gain tlv rangemin rangemax volume) xdir (block_min tlv) (block_max tlv)
        (tlv.word 0 == SND_CTL_TLVT_DB_MINMAX_MUTE) = volume ↔
      xdir > 0 ∨ rangemax - rangemin ∣ (block_max tlv - block_min tlv) * (volume - rangemin) := by
  have hrange := h.range
  have hfine := h.fine
  obtain ⟨hlow, hhigh⟩ := hvolume
  rcases hlow.eq_or_lt with rfl | hlow
  · rw [minmax_gain, if_pos (Or.inl le_rfl), minmax_bottom_back tlv _ _ _ h, sub_self, mul_zero]
    simp
  rcases hhigh.eq_or_lt with rfl | hhigh
  · rw [minmax_gain, if_neg (by omega), if_pos le_rfl, gain_volume, if_neg (by omega), if_pos le_rfl]
    simp
  obtain ⟨hproduct, hquot0, hquot1⟩ := minmax_gain_bounds tlv rangemin rangemax volume hlow hhigh (by omega)
  have hbounds := floor_bounds ((block_max tlv - block_min tlv) * (volume - rangemin)) (rangemax - rangemin)
    (by omega)
  rw [minmax_gain, if_neg (by omega), if_neg (by omega)]
  generalize hn : volume - rangemin = n at hproduct hquot0 hquot1 hbounds ⊢
  generalize hr : rangemax - rangemin = range at hfine hquot0 hquot1 hbounds ⊢
  generalize hw : block_max tlv - block_min tlv = width at hfine hproduct hquot0 hquot1 hbounds ⊢
  have hup := ceil_floor width range n (by omega) hfine
  have hdown := floor_floor width range n (by omega) hfine
  -- The gain lies between the ends of the block.
  have hpos : 0 < width * n / range := by
    rw [Int.lt_iff_add_one_le, zero_add, Int.le_ediv_iff_mul_le (by omega), one_mul]
    exact le_trans hfine (le_mul_of_one_le_right (by omega) (by omega))
  have hlt : width * n / range < width := by
    rw [Int.ediv_lt_iff_lt_mul (by omega)]
    exact mul_lt_mul_of_pos_left (by omega) (by omega)
  rw [gain_volume, if_neg (by omega), if_neg (by omega), hw, add_sub_cancel_right, hr]
  split_ifs with hxdir
  · simp only [hxdir, true_or, iff_true]
    omega
  · simp only [hxdir, false_or]
    rw [add_zero, ← hdown]
    omega

end RoundTrip

/-- The gain of the volume is converted back to the volume. -/
def RoundTrips (tlv : Words) (rangemin rangemax volume xdir : Int) : Prop :=
  ∃ gain, snd_tlv_convert_to_dB tlv rangemin rangemax volume = .ok (0, some gain) ∧
    snd_tlv_convert_from_dB tlv rangemin rangemax gain xdir = .ok (0, some volume)

/-- A volume comes back if it is rounded up, or if its gain was not rounded at all. -/
theorem minmax_round_trips_iff (tlv : Words) (rangemin rangemax volume xdir : Int)
    (h : IsMinmax tlv rangemin rangemax) (hvolume : volume ∈ Set.Icc rangemin rangemax) :
    RoundTrips tlv rangemin rangemax volume xdir ↔
      xdir > 0 ∨ rangemax - rangemin ∣ (block_max tlv - block_min tlv) * (volume - rangemin) := by
  rw [← minmax_back_iff tlv rangemin rangemax volume xdir h hvolume]
  constructor
  · rintro ⟨gain, hto, hfrom⟩
    rw [minmax_to_dB tlv _ _ _ h] at hto
    obtain rfl : minmax_gain tlv rangemin rangemax volume = gain := by simpa using hto
    rw [minmax_from_dB tlv _ _ _ h] at hfrom
    simpa using hfrom
  · intro hback
    refine ⟨_, minmax_to_dB tlv _ _ _ h, ?_⟩
    rw [minmax_from_dB tlv _ _ _ h, hback]

/-- Three hundredths of a dB over two steps. -/
def three_over_two : Words := Words.ofList [SND_CTL_TLVT_DB_MINMAX, 8#32, 0#32, 3#32]

theorem three_over_two_isMinmax : IsMinmax three_over_two 0 2 where
  block := Or.inl ⟨by decide, by decide⟩
  bottom := ⟨by norm_num, by norm_num⟩
  top := ⟨by norm_num, by norm_num⟩
  range := by norm_num
  min := by decide
  max := by decide
  fine := by decide

theorem three_over_two_up : RoundTrips three_over_two 0 2 1 1 :=
  (minmax_round_trips_iff three_over_two 0 2 1 1 three_over_two_isMinmax ⟨by norm_num, by norm_num⟩).mpr
    (Or.inl (by norm_num))

/-- The middle has the gain 1, and that is converted back to the bottom. -/
theorem three_over_two_drifts : ¬ ∀ tlv rangemin rangemax volume xdir, IsMinmax tlv rangemin rangemax →
    volume ∈ Set.Icc rangemin rangemax → RoundTrips tlv rangemin rangemax volume xdir := by
  intro hall
  obtain ⟨gain, hto, hfrom⟩ :=
    hall three_over_two 0 2 1 0 three_over_two_isMinmax ⟨by norm_num, by norm_num⟩
  have hone : snd_tlv_convert_to_dB three_over_two 0 2 1 = .ok (0, some 1) := by rfl
  have hzero : snd_tlv_convert_from_dB three_over_two 0 2 1 0 = .ok (0, some 0) := by rfl
  rw [hone] at hto
  obtain rfl : 1 = gain := by simpa using hto
  rw [hzero] at hfrom
  simp at hfrom

end Salsa.Tlv
