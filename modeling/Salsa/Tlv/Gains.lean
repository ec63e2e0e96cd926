import Salsa.Tlv.Limits

/-!
# The gains of a block

The header of a block gives the least and the greatest of its gains.
-/

namespace Salsa.Tlv

open CInt

/-- A block over more than one volume, whose gains do not go down. -/
structure IsGainBlock (tlv : Words) (rangemin rangemax : Int) : Prop where
  block : IsBlock tlv SND_CTL_TLVT_DB_SCALE ∨ IsMinmaxBlock tlv
  range : rangemin < rangemax
  min : SND_CTL_TLV_DB_GAIN_MUTE ≤ block_min tlv
  max : tlv.word 0 ≠ SND_CTL_TLVT_DB_SCALE → block_min tlv ≤ block_max tlv ∧ block_max tlv ≤ 9999999

theorem IsGainBlock.size {tlv : Words} {rangemin rangemax : Int} (h : IsGainBlock tlv rangemin rangemax) :
    4 ≤ tlv.size :=
  h.block.elim IsBlock.size (minmax_size tlv)

def block_gain (tlv : Words) (rangemin rangemax volume : Int) : Int :=
  if tlv.word 0 = SND_CTL_TLVT_DB_SCALE then scale_gain tlv rangemin volume
  else minmax_gain tlv rangemin rangemax volume

def block_low (tlv : Words) : Int := if mutes tlv then SND_CTL_TLV_DB_GAIN_MUTE else block_min tlv

def block_high (tlv : Words) (rangemin rangemax : Int) : Int :=
  if tlv.word 0 = SND_CTL_TLVT_DB_SCALE then scale_top tlv rangemin rangemax else block_max tlv

/-- What the conversion of every volume computes fits in a long. -/
structure FitsLong (tlv : Words) (rangemin rangemax : Int) : Prop where
  span : IsLong (rangemax - rangemin)
  product : tlv.word 0 = SND_CTL_TLVT_DB_SCALE → IsLong (block_step tlv * (rangemax - rangemin))
  sum : tlv.word 0 = SND_CTL_TLVT_DB_SCALE → IsLong (scale_top tlv rangemin rangemax)
  share : tlv.word 0 ≠ SND_CTL_TLVT_DB_SCALE →
    IsLong ((block_max tlv - block_min tlv) * (rangemax - rangemin - 1))

/-- Over a range of ints the gains of a scale fit in a long. -/
theorem scale_fits (tlv : Words) (rangemin rangemax : Int) (hmin : IsInt rangemin) (hmax : IsInt rangemax) :
    IsLong (rangemax - rangemin) ∧ IsLong (block_step tlv * (rangemax - rangemin)) ∧
      IsLong (scale_top tlv rangemin rangemax) := by
  obtain ⟨hdown, hup⟩ := step_span_bounds tlv rangemin rangemax hmin hmax
  obtain ⟨hmin0, hmin1⟩ := hmin
  obtain ⟨hmax0, hmax1⟩ := hmax
  obtain ⟨hint0, hint1⟩ := block_min_isInt tlv
  rw [scale_top]
  exact ⟨⟨by omega, by omega⟩, ⟨by omega, by omega⟩, by omega, by omega⟩

theorem minmax_type (tlv : Words) (h : IsMinmaxBlock tlv) : tlv.word 0 ≠ SND_CTL_TLVT_DB_SCALE := by
  rcases h with h | h <;>
    · rw [h.type]
      decide

theorem block_gain_bottom (tlv : Words) (rangemin rangemax : Int) :
    block_gain tlv rangemin rangemax rangemin = block_low tlv := by
  rw [block_gain, block_low, mutes]
  split_ifs with htype hmute hmute
  · exact scale_gain_mute tlv rangemin hmute
  · exact scale_gain_bottom tlv rangemin (by simpa using hmute)
  · rw [minmax_gain, if_pos (Or.inl le_rfl), minmax_bottom, if_pos (beq_iff_eq.mp hmute)]
  · rw [minmax_gain, if_pos (Or.inl le_rfl), minmax_bottom, if_neg fun heq => hmute (beq_iff_eq.mpr heq)]

section Block

variable (tlv : Words) (rangemin rangemax : Int) (h : IsGainBlock tlv rangemin rangemax)

include h

theorem block_low_le : block_low tlv ≤ block_min tlv := by
  have hmin := h.min
  rw [block_low]
  split_ifs
  · exact hmin
  · exact le_rfl

theorem block_min_le_high : block_min tlv ≤ block_high tlv rangemin rangemax := by
  have hrange := h.range
  rw [block_high]
  split_ifs with htype
  · have hproduct : 0 ≤ block_step tlv * (rangemax - rangemin) :=
      mul_nonneg (block_step_bounds tlv).1 (by omega)
    rw [scale_top]
    omega
  · exact (h.max htype).1

theorem block_gain_top : block_gain tlv rangemin rangemax rangemax = block_high tlv rangemin rangemax := by
  have hrange := h.range
  rw [block_gain, block_high]
  split_ifs
  · exact scale_gain_top tlv rangemin rangemax hrange
  · rw [minmax_gain, if_neg (by omega), if_pos le_rfl]

/-- Above the bottom a gain lies between the ends of the header. -/
theorem block_gain_above (volume : Int) (hlow : rangemin < volume) (hhigh : volume ≤ rangemax) :
    block_min tlv ≤ block_gain tlv rangemin rangemax volume ∧
      block_gain tlv rangemin rangemax volume ≤ block_high tlv rangemin rangemax := by
  rcases hhigh.eq_or_lt with rfl | hhigh
  · rw [block_gain_top tlv _ _ h]
    exact ⟨block_min_le_high tlv _ _ h, le_rfl⟩
  rw [block_gain, block_high]
  split_ifs with htype
  · obtain ⟨hproduct, hproduct'⟩ := steps_bounds tlv rangemin rangemax volume ⟨by omega, by omega⟩
    rw [scale_gain_above tlv rangemin volume hlow, scale_top]
    omega
  · obtain ⟨-, hquot0, hquot1⟩ := minmax_gain_bounds tlv rangemin rangemax volume hlow hhigh (h.max htype).1
    rw [minmax_gain, if_neg (by omega), if_neg (by omega)]
    omega

theorem block_gain_bounds (volume : Int) (hvolume : volume ∈ Set.Icc rangemin rangemax) :
    block_low tlv ≤ block_gain tlv rangemin rangemax volume ∧
      block_gain tlv rangemin rangemax volume ≤ block_high tlv rangemin rangemax := by
  have hlow := block_low_le tlv _ _ h
  have hhigh := block_min_le_high tlv _ _ h
  rcases hvolume.1.eq_or_lt with rfl | habove
  · rw [block_gain_bottom]
    exact ⟨le_rfl, by omega⟩
  · obtain ⟨h0, h1⟩ := block_gain_above tlv _ _ h volume habove hvolume.2
    exact ⟨by omega, h1⟩

/-- The ends of the header are gains of the block, and the extreme ones. -/
theorem block_gain_extremes :
    IsLeast (block_gain tlv rangemin rangemax '' Set.Icc rangemin rangemax) (block_low tlv) ∧
      IsGreatest (block_gain tlv rangemin rangemax '' Set.Icc rangemin rangemax)
        (block_high tlv rangemin rangemax) := by
  have hrange := h.range
  refine ⟨⟨⟨rangemin, ⟨le_rfl, hrange.le⟩, block_gain_bottom tlv rangemin rangemax⟩, ?_⟩,
    ⟨rangemax, ⟨hrange.le, le_rfl⟩, block_gain_top tlv _ _ h⟩, ?_⟩
  · rintro _ ⟨v, hv, rfl⟩
    exact (block_gain_bounds tlv _ _ h v hv).1
  · rintro _ ⟨v, hv, rfl⟩
    exact (block_gain_bounds tlv _ _ h v hv).2

theorem block_to_dB (fuel : Nat) (volume : Int) (hfits : FitsLong tlv rangemin rangemax)
    (hvolume : volume ∈ Set.Icc rangemin rangemax) :
    convert_to_dB (fuel + 1) tlv rangemin rangemax volume =
      .ok (0, some (block_gain tlv rangemin rangemax volume)) := by
  obtain ⟨hlow, hhigh⟩ := hvolume
  obtain ⟨hspan0, hspan1⟩ := hfits.span
  rw [block_gain]
  rcases h.block with hblock | hblock
  · obtain ⟨hproduct0, hproduct1⟩ := hfits.product hblock.type
    obtain ⟨hsum0, hsum1⟩ := hfits.sum hblock.type
    obtain ⟨hnonneg, hle⟩ := steps_bounds tlv rangemin rangemax volume ⟨hlow, hhigh⟩
    obtain ⟨hmin0, hmin1⟩ := block_min_isInt tlv
    rw [scale_top] at hsum1
    rw [if_pos hblock.type, convert_to_dB_scale _ _ _ _ _ hblock]
    exact tlv_to_dB_scale_eq tlv _ _ _ hblock ⟨by omega, by omega⟩ ⟨by omega, by omega⟩ ⟨by omega, by omega⟩
  · have htype := minmax_type tlv hblock
    have hsize := minmax_size tlv hblock
    obtain ⟨hmin, hmax⟩ := h.max htype
    have hmute := h.min
    simp only [SND_CTL_TLV_DB_GAIN_MUTE] at hmute
    rw [if_neg htype, convert_to_dB_minmax _ _ _ _ _ hblock]
    by_cases hend : rangemin < volume ∧ volume < rangemax
    · obtain ⟨hshare0, hshare1⟩ := hfits.share htype
      have hnonneg : 0 ≤ (block_max tlv - block_min tlv) * (volume - rangemin) :=
        mul_nonneg (by omega) (by omega)
      have hle : (block_max tlv - block_min tlv) * (volume - rangemin) ≤
          (block_max tlv - block_min tlv) * (rangemax - rangemin - 1) :=
        mul_le_mul_of_nonneg_left (by omega) (by omega)
      rw [tlv_to_dB_minmax_between tlv _ _ _ hsize hend.1 hend.2 hfits.span hmin ⟨by omega, by omega⟩,
        IsLong.ok ⟨by omega, by omega⟩, ok_bind]
      rfl
    · exact tlv_to_dB_minmax_end tlv _ _ _ hsize hend

end Block

theorem mute_of_and (v : BitVec 32) : v &&& 0x10000#32 ≠ 0#32 ↔ v.getLsbD 16 = true := by
  rw [← mute_of_mask, bne_iff_ne]

/-- The report is the ends of the header. -/
theorem block_dB_range (fuel : Nat) (tlv : Words) (rangemin rangemax : Int) (out : Option (Int × Int))
    (hblock : IsBlock tlv SND_CTL_TLVT_DB_SCALE ∨ IsMinmaxBlock tlv) (hfits : FitsLong tlv rangemin rangemax) :
    get_dB_range (fuel + 1) tlv rangemin rangemax out =
      .ok (0, some (block_low tlv, block_high tlv rangemin rangemax)) := by
  rw [block_low, block_high, mutes]
  rcases hblock with hscale | hminmax | hmute
  · have hproduct := hfits.product hscale.type
    have hsum := hfits.sum hscale.type
    rw [scale_top] at hsum ⊢
    rw [block_step] at hproduct hsum ⊢
    rw [block_min] at hsum ⊢
    rw [if_pos hscale.type, if_pos hscale.type, get_dB_range, hscale.read_type, ok_bind, if_neg (by decide),
      if_pos rfl, tlv_range_dB_scale, hscale.read_max, hscale.read_min, block_mute]
    simp only [ok_bind, mute_of_and, hfits.span.ok, hproduct.ok, hsum.ok]
    split_ifs <;> rfl
  · have htype : tlv.word 0 ≠ SND_CTL_TLVT_DB_SCALE := minmax_type tlv (Or.inl hminmax)
    rw [if_neg htype, if_neg htype, get_dB_range, hminmax.read_type, hminmax.type, hminmax.read_max,
      hminmax.read_min]
    rfl
  · have htype : tlv.word 0 ≠ SND_CTL_TLVT_DB_SCALE := minmax_type tlv (Or.inr hmute)
    rw [if_neg htype, if_neg htype, get_dB_range, hmute.read_type, hmute.type, hmute.read_max]
    rfl

end Salsa.Tlv
