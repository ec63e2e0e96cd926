import Salsa.Tlv.Scale
import Salsa.Tlv.Minmax

/-!
# The limits of the conversion to volumes

On a block of any contents the conversion may overflow, and the step over the mute volume may
leave the range.
-/

namespace Salsa.Tlv

open CInt

/-- Whether the bottom of the block is mute. -/
def mutes (tlv : Words) : Bool :=
  if tlv.word 0 = SND_CTL_TLVT_DB_SCALE then block_mute tlv else tlv.word 0 == SND_CTL_TLVT_DB_MINMAX_MUTE

/-- The last gain of the block, as the conversion to volumes takes it. -/
def from_dB_top (tlv : Words) (rangemin rangemax : Int) : Int :=
  if tlv.word 0 = SND_CTL_TLVT_DB_SCALE then block_min tlv + cut (block_step tlv * (rangemax - rangemin))
  else block_max tlv

/-- The conversion ends with a volume of the range. -/
def Converts (tlv : Words) (rangemin rangemax db_gain xdir : Int) : Prop :=
  ∃ v, snd_tlv_convert_from_dB tlv rangemin rangemax db_gain xdir = .ok (0, some v) ∧
    v ∈ Set.Icc rangemin rangemax

/-- A volume of any kind of block is computed from its two ends. -/
theorem from_dB_block (tlv : Words) (rangemin rangemax db_gain xdir : Int)
    (hblock : IsBlock tlv SND_CTL_TLVT_DB_SCALE ∨ IsMinmaxBlock tlv) (hmin : IsInt rangemin) (hmax : IsInt rangemax)
    (hrange : rangemin ≤ rangemax) :
    snd_tlv_convert_from_dB tlv rangemin rangemax db_gain xdir = do
      let max ← int (from_dB_top tlv rangemin rangemax)
      return (0, some (← _tlv_from_dB_minmax rangemin rangemax db_gain xdir (block_min tlv) max (mutes tlv))) := by
  obtain ⟨hmin0, hmin1⟩ := hmin
  obtain ⟨hmax0, hmax1⟩ := hmax
  rw [snd_tlv_convert_from_dB, from_dB_top, mutes]
  rcases hblock with h | h
  · obtain ⟨hstep0, hstep1⟩ := block_step_bounds tlv
    have hproduct0 : 0 ≤ block_step tlv * (rangemax - rangemin) := mul_nonneg hstep0 (by omega)
    have hproduct1 : block_step tlv * (rangemax - rangemin) ≤ 65535 * 4294967295 :=
      mul_le_mul hstep1 (by omega) (by omega) (by norm_num)
    rw [if_pos h.type, if_pos h.type, convert_from_dB_scale _ _ _ _ _ _ h,
      tlv_from_dB_scale_eq _ _ _ _ _ h ⟨by omega, by omega⟩ ⟨by omega, by omega⟩]
  · have hsize := minmax_size tlv h
    have htype : tlv.word 0 ≠ SND_CTL_TLVT_DB_SCALE := by
      rcases h with h | h <;>
        · rw [h.type]
          decide
    rw [if_neg htype, if_neg htype, convert_from_dB_minmax _ _ _ _ _ _ h, tlv_from_dB_minmax,
      tlv.read_ok 2 (by omega), tlv.read_ok 3 (by omega), tlv.read_ok 0 (by omega), (block_max_isInt tlv).ok]
    rfl

/-- The last gain of the block is an int, the gains that are not all above or below the given one
are no further apart than an int, and the mute volume is not the only one if it is stepped over. -/
structure WithinLimits (tlv : Words) (rangemin rangemax db_gain xdir : Int) : Prop where
  top : IsInt (from_dB_top tlv rangemin rangemax)
  width : block_min tlv < db_gain → db_gain < from_dB_top tlv rangemin rangemax →
    from_dB_top tlv rangemin rangemax - block_min tlv ≤ 2147483647
  mute : mutes tlv = true → SND_CTL_TLV_DB_GAIN_MUTE < db_gain → db_gain ≤ block_min tlv → xdir > 0 →
    rangemin < rangemax

theorem gain_volume_in_range (rangemin rangemax db_gain xdir min max : Int) (have_mute : Bool)
    (hrange : rangemin ≤ rangemax)
    (hmute : have_mute = true → SND_CTL_TLV_DB_GAIN_MUTE < db_gain → db_gain ≤ min → xdir > 0 → rangemin < rangemax) :
    gain_volume rangemin rangemax db_gain xdir min max have_mute ∈ Set.Icc rangemin rangemax := by
  rw [gain_volume]
  split_ifs with hlow hrule hhigh hxdir
  · have := hmute hrule.2.2 hrule.1 hlow hrule.2.1
    exact ⟨by omega, by omega⟩
  · exact ⟨le_rfl, hrange⟩
  · exact ⟨hrange, le_rfl⟩
  · obtain ⟨h0, h1⟩ := scaled_bounds (db_gain - min) (rangemax - rangemin) (max - min) (max - min - 1)
      (by omega) (by omega) (by omega)
    exact ⟨by omega, by omega⟩
  · obtain ⟨h0, h1⟩ := scaled_bounds (db_gain - min) (rangemax - rangemin) (max - min) 0
      (by omega) (by omega) (by omega)
    exact ⟨by omega, by omega⟩

/-- The conversion neither overflows nor leaves the range if and only if it keeps within the
limits. -/
theorem converts_iff_within (tlv : Words) (rangemin rangemax db_gain xdir : Int)
    (hblock : IsBlock tlv SND_CTL_TLVT_DB_SCALE ∨ IsMinmaxBlock tlv) (hmin : IsInt rangemin) (hmax : IsInt rangemax)
    (hrange : rangemin ≤ rangemax) :
    Converts tlv rangemin rangemax db_gain xdir ↔ WithinLimits tlv rangemin rangemax db_gain xdir := by
  have heq := from_dB_block tlv rangemin rangemax db_gain xdir hblock hmin hmax hrange
  have hnext : IsLong (rangemin + 1) := by
    obtain ⟨hmin0, hmin1⟩ := hmin
    exact ⟨by omega, by omega⟩
  have hspan : rangemax - rangemin ≤ 4294967296 := by
    have := hmin.1
    have := hmax.2
    omega
  constructor
  · rintro ⟨v, hv, hlow, hhigh⟩
    rw [heq] at hv
    obtain ⟨max, htop, hv⟩ := (bind_eq_ok _ _ _).mp hv
    have hint : IsInt (from_dB_top tlv rangemin rangemax) := by
      by_contra hnot
      rw [int_error hnot] at htop
      cases htop
    rw [hint.ok] at htop
    obtain rfl : from_dB_top tlv rangemin rangemax = max := by simpa using htop
    have hwidth : block_min tlv < db_gain → db_gain < from_dB_top tlv rangemin rangemax →
        from_dB_top tlv rangemin rangemax - block_min tlv ≤ 2147483647 := by
      intro hg0 hg1
      by_contra hwide
      rw [_tlv_from_dB_minmax_overflow _ _ _ _ _ _ _ hg0 hg1 (by omega)] at hv
      cases hv
    refine ⟨hint, hwidth, fun hmute hgain hlow' hxdir => ?_⟩
    rw [_tlv_from_dB_minmax_eq _ _ _ _ _ _ _ hmin.isLong hmax.isLong (by omega) hspan hnext hwidth, ok_bind,
      gain_volume, if_pos hlow', if_pos ⟨hgain, hxdir, hmute⟩] at hv
    obtain rfl : rangemin + 1 = v := by simpa [pure, Except.pure] using hv
    omega
  · rintro ⟨hint, hwidth, hmute⟩
    refine ⟨_, ?_, gain_volume_in_range rangemin rangemax db_gain xdir (block_min tlv)
      (from_dB_top tlv rangemin rangemax) (mutes tlv) hrange hmute⟩
    rw [heq, hint.ok, ok_bind,
      _tlv_from_dB_minmax_eq _ _ _ _ _ _ _ hmin.isLong hmax.isLong (by omega) hspan hnext hwidth, ok_bind]
    rfl

def wide_minmax : Words :=
  Words.ofList [SND_CTL_TLVT_DB_MINMAX, 8#32, 0x80000000#32, 0x7fffffff#32]

theorem wide_minmax_converts : Converts wide_minmax 0 100 (-2147483648) 0 :=
  (converts_iff_within wide_minmax 0 100 (-2147483648) 0 (Or.inr (Or.inl ⟨by decide, by decide⟩))
    ⟨by norm_num, by norm_num⟩ ⟨by norm_num, by norm_num⟩ (by norm_num)).mpr
    ⟨⟨by decide, by decide⟩, fun h => absurd h (by decide), fun h => absurd h (by decide)⟩

/-- The distance of the two gains is not an int. -/
theorem wide_minmax_overflows : ¬ ∀ tlv rangemin rangemax db_gain xdir,
    (IsBlock tlv SND_CTL_TLVT_DB_SCALE ∨ IsMinmaxBlock tlv) → IsInt rangemin → IsInt rangemax →
      rangemin ≤ rangemax → IsInt db_gain → Converts tlv rangemin rangemax db_gain xdir := by
  intro hall
  obtain ⟨v, hv, -⟩ := hall wide_minmax 0 100 0 0 (Or.inr (Or.inl ⟨by decide, by decide⟩))
    ⟨by norm_num, by norm_num⟩ ⟨by norm_num, by norm_num⟩ (by norm_num) ⟨by norm_num, by norm_num⟩
  have hover : snd_tlv_convert_from_dB wide_minmax 0 100 0 0 = .error .overflow := by rfl
  rw [hover] at hv
  cases hv

end Salsa.Tlv
