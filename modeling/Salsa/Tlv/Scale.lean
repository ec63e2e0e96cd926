import Salsa.Tlv.Blocks
import Mathlib.Tactic.Ring

/-!
# DB_SCALE

A gain is converted to the nearest volume on the side that is asked for, as long as the gains of
the block are no further apart than an int.
-/

namespace Salsa.Tlv

open CInt Rounding

/-! ## The volumes of a scale -/

section Gains

variable (tlv : Words) (rangemin rangemax : Int)

theorem scale_gain_above (u : Int) (h : rangemin < u) :
    scale_gain tlv rangemin u = (u - rangemin) * block_step tlv + block_min tlv := by
  rw [scale_gain, if_neg]
  omega

theorem scale_gain_le (u : Int) (hmin : SND_CTL_TLV_DB_GAIN_MUTE ≤ block_min tlv) :
    scale_gain tlv rangemin u ≤ (u - rangemin) * block_step tlv + block_min tlv := by
  rw [scale_gain]
  split_ifs with h
  · rw [h.2, sub_self, zero_mul, zero_add]
    exact hmin
  · exact le_rfl

theorem scale_gain_bottom (h : block_mute tlv = false) : scale_gain tlv rangemin rangemin = block_min tlv := by
  simp [scale_gain, h]

theorem scale_gain_mute (h : block_mute tlv = true) :
    scale_gain tlv rangemin rangemin = SND_CTL_TLV_DB_GAIN_MUTE := by
  simp [scale_gain, h]

theorem scale_gain_strictMono (hstep : 1 ≤ block_step tlv) (hmin : SND_CTL_TLV_DB_GAIN_MUTE ≤ block_min tlv) :
    StrictMonoOn (scale_gain tlv rangemin) (Set.Icc rangemin rangemax) := by
  intro u hu v _ huv
  have hlow := hu.1
  rw [scale_gain_above tlv rangemin v (by omega)]
  have hle := scale_gain_le tlv rangemin u hmin
  have hlt : (u - rangemin) * block_step tlv < (v - rangemin) * block_step tlv :=
    mul_lt_mul_of_pos_right (by omega) (by omega)
  omega

/-- The last gain of the block. -/
def scale_top : Int := block_min tlv + block_step tlv * (rangemax - rangemin)

/-- The volume for a gain of the scale, where nothing overflows. -/
def scale_volume (db_gain xdir : Int) : Int :=
  gain_volume rangemin rangemax db_gain xdir (block_min tlv) (scale_top tlv rangemin rangemax) (block_mute tlv)

theorem top_sub_min : scale_top tlv rangemin rangemax - block_min tlv = block_step tlv * (rangemax - rangemin) := by
  rw [scale_top]
  ring

theorem scale_gain_top (hrange : rangemin < rangemax) :
    scale_gain tlv rangemin rangemax = scale_top tlv rangemin rangemax := by
  rw [scale_gain_above tlv rangemin rangemax hrange, scale_top]
  ring

end Gains

/-! ## The rounding -/

/-- A scale of at least one unit a step, whose last gain is an int. -/
structure IsScale (tlv : Words) (rangemin rangemax : Int) : Prop where
  block : IsBlock tlv SND_CTL_TLVT_DB_SCALE
  bottom : IsLong rangemin
  top : IsLong rangemax
  range : rangemin < rangemax
  step : 1 ≤ block_step tlv
  min : SND_CTL_TLV_DB_GAIN_MUTE ≤ block_min tlv
  fits : IsInt (scale_top tlv rangemin rangemax)

section Rounds

variable (tlv : Words) (rangemin rangemax db_gain xdir : Int) (h : IsScale tlv rangemin rangemax)

include h

theorem scale_volume_up_low (hxdir : xdir > 0) (hlow : db_gain ≤ block_min tlv) :
    RoundsUp (Set.Icc rangemin rangemax) (scale_gain tlv rangemin) rangemax db_gain
      (scale_volume tlv rangemin rangemax db_gain xdir) := by
  have hrange := h.range
  have hstep := h.step
  left
  rw [scale_volume, gain_volume, if_pos hlow]
  split_ifs with hmute
  · refine ⟨⟨⟨by omega, by omega⟩, ?_⟩, fun u hu => ?_⟩
    · rw [scale_gain_above tlv rangemin _ (by omega)]
      have : (rangemin + 1 - rangemin) * block_step tlv = block_step tlv := by ring
      omega
    · obtain ⟨⟨hu1, -⟩, hge⟩ := hu
      by_contra hlt
      obtain rfl : u = rangemin := by omega
      rw [scale_gain_mute tlv u hmute.2.2] at hge
      omega
  · refine ⟨⟨⟨le_rfl, hrange.le⟩, ?_⟩, fun u hu => hu.1.1⟩
    cases hbit : block_mute tlv with
    | true =>
      rw [scale_gain_mute tlv rangemin hbit]
      by_contra hgt
      exact hmute ⟨by omega, hxdir, hbit⟩
    | false => rwa [scale_gain_bottom tlv rangemin hbit]

theorem scale_volume_down_low (hxdir : ¬ xdir > 0) (hlow : db_gain ≤ block_min tlv) :
    RoundsDown (Set.Icc rangemin rangemax) (scale_gain tlv rangemin) rangemin db_gain
      (scale_volume tlv rangemin rangemax db_gain xdir) := by
  have hrange := h.range
  have hstep := h.step
  have hmono := scale_gain_strictMono tlv rangemin rangemax h.step h.min
  have hbottom : rangemin ∈ Set.Icc rangemin rangemax := ⟨le_rfl, hrange.le⟩
  rw [scale_volume, gain_volume, if_pos hlow, if_neg fun h => hxdir h.2.1]
  by_cases hge : scale_gain tlv rangemin rangemin ≤ db_gain
  · refine Or.inl ⟨⟨hbottom, hge⟩, fun u hu => ?_⟩
    by_contra hlt
    have habove := scale_gain_above tlv rangemin u (by omega)
    have hle := hu.2
    have hone : 1 * block_step tlv ≤ (u - rangemin) * block_step tlv :=
      mul_le_mul_of_nonneg_right (by omega) (by omega)
    omega
  · refine roundsDown_of_none _ _ _ _ fun u hu => ?_
    have := hmono.monotoneOn hbottom hu hu.1
    omega

theorem scale_volume_up_high (hlow : ¬ db_gain ≤ block_min tlv) (hhigh : scale_top tlv rangemin rangemax ≤ db_gain) :
    RoundsUp (Set.Icc rangemin rangemax) (scale_gain tlv rangemin) rangemax db_gain
      (scale_volume tlv rangemin rangemax db_gain xdir) := by
  have hmono := scale_gain_strictMono tlv rangemin rangemax h.step h.min
  have htop : rangemax ∈ Set.Icc rangemin rangemax := ⟨h.range.le, le_rfl⟩
  have hgain := scale_gain_top tlv rangemin rangemax h.range
  rw [scale_volume, gain_volume, if_neg hlow, if_pos hhigh]
  rcases hhigh.eq_or_lt with heq | hlt
  · refine Or.inl ⟨⟨htop, by omega⟩, fun u hu => ?_⟩
    exact (hmono.le_iff_le htop hu.1).mp (by have := hu.2; omega)
  · refine roundsUp_of_none _ _ _ _ fun u hu => ?_
    have := hmono.monotoneOn hu htop hu.2
    omega

theorem scale_volume_down_high (hlow : ¬ db_gain ≤ block_min tlv)
    (hhigh : scale_top tlv rangemin rangemax ≤ db_gain) :
    RoundsDown (Set.Icc rangemin rangemax) (scale_gain tlv rangemin) rangemin db_gain
      (scale_volume tlv rangemin rangemax db_gain xdir) := by
  have hgain := scale_gain_top tlv rangemin rangemax h.range
  rw [scale_volume, gain_volume, if_neg hlow, if_pos hhigh]
  exact Or.inl ⟨⟨⟨h.range.le, le_rfl⟩, by omega⟩, fun u hu => hu.1.2⟩

theorem scale_volume_up_between (hxdir : xdir > 0) (hlow : ¬ db_gain ≤ block_min tlv)
    (hhigh : ¬ scale_top tlv rangemin rangemax ≤ db_gain) :
    RoundsUp (Set.Icc rangemin rangemax) (scale_gain tlv rangemin) rangemax db_gain
      (scale_volume tlv rangemin rangemax db_gain xdir) := by
  have hrange := h.range
  have hstep := h.step
  have hwidth := top_sub_min tlv rangemin rangemax
  rw [scale_volume, gain_volume, if_neg hlow, if_neg hhigh, if_pos hxdir, hwidth]
  generalize hq : ((db_gain - block_min tlv) * (rangemax - rangemin) +
    (block_step tlv * (rangemax - rangemin) - 1)) / (block_step tlv * (rangemax - rangemin)) = q
  have hiff : ∀ x, q ≤ x ↔ db_gain - block_min tlv ≤ x * block_step tlv := fun x => by
    rw [← hq, ceil_le_iff _ _ _ (mul_pos (by omega) (by omega)), ← mul_assoc]
    exact mul_le_mul_iff_left₀ (by omega)
  have hpos : 0 < q := by
    by_contra hle
    have := (hiff 0).mp (by omega)
    omega
  have hle : q ≤ rangemax - rangemin := (hiff _).mpr (by rw [mul_comm]; omega)
  have hself := (hiff q).mp le_rfl
  left
  refine ⟨⟨⟨by omega, by omega⟩, ?_⟩, fun u hu => ?_⟩
  · rw [scale_gain_above tlv rangemin _ (by omega), add_sub_cancel_right]
    omega
  · have hgain := scale_gain_le tlv rangemin u h.min
    have hge := hu.2
    have := (hiff (u - rangemin)).mpr (by omega)
    omega

theorem scale_volume_down_between (hxdir : ¬ xdir > 0) (hlow : ¬ db_gain ≤ block_min tlv)
    (hhigh : ¬ scale_top tlv rangemin rangemax ≤ db_gain) :
    RoundsDown (Set.Icc rangemin rangemax) (scale_gain tlv rangemin) rangemin db_gain
      (scale_volume tlv rangemin rangemax db_gain xdir) := by
  have hrange := h.range
  have hstep := h.step
  have hwidth := top_sub_min tlv rangemin rangemax
  rw [scale_volume, gain_volume, if_neg hlow, if_neg hhigh, if_neg hxdir, hwidth, add_zero]
  generalize hq : (db_gain - block_min tlv) * (rangemax - rangemin) /
    (block_step tlv * (rangemax - rangemin)) = q
  have hiff : ∀ x, x ≤ q ↔ x * block_step tlv ≤ db_gain - block_min tlv := fun x => by
    rw [← hq, Int.le_ediv_iff_mul_le (mul_pos (by omega) (by omega)), ← mul_assoc]
    exact mul_le_mul_iff_left₀ (by omega)
  have hnonneg : 0 ≤ q := (hiff 0).mpr (by omega)
  have hle : q ≤ rangemax - rangemin := by
    by_contra hgt
    have hover := (hiff (rangemax - rangemin)).mp (by omega)
    rw [mul_comm] at hover
    omega
  have hself := (hiff q).mp le_rfl
  left
  refine ⟨⟨⟨by omega, by omega⟩, ?_⟩, fun u hu => ?_⟩
  · have hgain := scale_gain_le tlv rangemin (q + rangemin) h.min
    rw [add_sub_cancel_right] at hgain
    omega
  · by_contra hgt
    have hgain := scale_gain_above tlv rangemin u (by omega)
    have hle' := hu.2
    have := (hiff (u - rangemin)).mpr (by omega)
    omega

theorem scale_volume_rounds :
    if xdir > 0 then
      RoundsUp (Set.Icc rangemin rangemax) (scale_gain tlv rangemin) rangemax db_gain
        (scale_volume tlv rangemin rangemax db_gain xdir)
    else
      RoundsDown (Set.Icc rangemin rangemax) (scale_gain tlv rangemin) rangemin db_gain
        (scale_volume tlv rangemin rangemax db_gain xdir) := by
  by_cases hlow : db_gain ≤ block_min tlv
  · split_ifs with hxdir
    · exact scale_volume_up_low tlv _ _ _ _ h hxdir hlow
    · exact scale_volume_down_low tlv _ _ _ _ h hxdir hlow
  · by_cases hhigh : scale_top tlv rangemin rangemax ≤ db_gain
    · split_ifs
      · exact scale_volume_up_high tlv _ _ _ _ h hlow hhigh
      · exact scale_volume_down_high tlv _ _ _ _ h hlow hhigh
    · split_ifs with hxdir
      · exact scale_volume_up_between tlv _ _ _ _ h hxdir hlow hhigh
      · exact scale_volume_down_between tlv _ _ _ _ h hxdir hlow hhigh

theorem scale_width : 0 ≤ block_step tlv * (rangemax - rangemin) ∧
    block_step tlv * (rangemax - rangemin) ≤ 2157483646 ∧ rangemax - rangemin ≤ 2157483646 := by
  have hrange := h.range
  have hstep := h.step
  have hmin := h.min
  have hfits := h.fits.2
  rw [scale_top] at hfits
  simp only [SND_CTL_TLV_DB_GAIN_MUTE] at hmin
  have hle : 1 * (rangemax - rangemin) ≤ block_step tlv * (rangemax - rangemin) :=
    mul_le_mul_of_nonneg_right hstep (by omega)
  omega

end Rounds

/-! ## The conversions -/

theorem tlv_from_dB_scale_eq (tlv : Words) (rangemin rangemax db_gain xdir : Int)
    (hblock : IsBlock tlv SND_CTL_TLVT_DB_SCALE) (hspan : IsLong (rangemax - rangemin))
    (hproduct : IsLong (block_step tlv * (rangemax - rangemin))) :
    tlv_from_dB_scale tlv rangemin rangemax db_gain xdir = do
      let max ← int (block_min tlv + cut (block_step tlv * (rangemax - rangemin)))
      return (0, some (← _tlv_from_dB_minmax rangemin rangemax db_gain xdir (block_min tlv) max
        (block_mute tlv))) := by
  rw [block_step] at hproduct ⊢
  simp only [tlv_from_dB_scale, hblock.read_min, hblock.read_max, ok_bind, hspan.ok, hproduct.ok, mute_of_mask,
    block_min, block_mute]

theorem scale_to_dB (tlv : Words) (rangemin rangemax volume : Int) (h : IsScale tlv rangemin rangemax)
    (hvolume : volume ∈ Set.Icc rangemin rangemax) :
    snd_tlv_convert_to_dB tlv rangemin rangemax volume = .ok (0, some (scale_gain tlv rangemin volume)) := by
  obtain ⟨hlow, hhigh⟩ := hvolume
  obtain ⟨hwidth0, hwidth, hspan⟩ := scale_width tlv rangemin rangemax h
  have hmin := block_min_isInt tlv
  obtain ⟨hproduct0, hproduct⟩ := steps_bounds tlv rangemin rangemax volume ⟨hlow, hhigh⟩
  obtain ⟨hmin0, hmin1⟩ := hmin
  rw [snd_tlv_convert_to_dB, convert_to_dB_scale _ _ _ _ _ h.block]
  exact tlv_to_dB_scale_eq tlv _ _ _ h.block ⟨by omega, by omega⟩ ⟨by omega, by omega⟩ ⟨by omega, by omega⟩

theorem scale_from_dB (tlv : Words) (rangemin rangemax db_gain xdir : Int) (h : IsScale tlv rangemin rangemax)
    (hwidth : block_step tlv * (rangemax - rangemin) ≤ 2147483647) :
    snd_tlv_convert_from_dB tlv rangemin rangemax db_gain xdir =
      .ok (0, some (scale_volume tlv rangemin rangemax db_gain xdir)) := by
  obtain ⟨hwidth0, -, hspan⟩ := scale_width tlv rangemin rangemax h
  have hrange := h.range
  have hnext : IsLong (rangemin + 1) := ⟨by have := h.bottom.1; omega, by have := h.top.2; omega⟩
  have hcut := IsInt.cut (x := block_step tlv * (rangemax - rangemin)) ⟨by omega, hwidth⟩
  have htop : int (block_min tlv + block_step tlv * (rangemax - rangemin)) =
      .ok (scale_top tlv rangemin rangemax) := h.fits.ok
  have hdiff := top_sub_min tlv rangemin rangemax
  rw [snd_tlv_convert_from_dB, convert_from_dB_scale _ _ _ _ _ _ h.block,
    tlv_from_dB_scale_eq _ _ _ _ _ h.block ⟨by omega, by omega⟩ ⟨by omega, by omega⟩, hcut, htop, ok_bind,
    _tlv_from_dB_minmax_eq _ _ _ _ _ _ _ h.bottom h.top (by omega) (by omega) hnext (fun _ _ => by omega),
    ok_bind, scale_volume]
  rfl

/-- On a wider scale the last gain is computed with a cut product, and overflows. -/
theorem scale_from_dB_overflow (tlv : Words) (rangemin rangemax db_gain xdir : Int)
    (h : IsScale tlv rangemin rangemax) (hwidth : ¬ block_step tlv * (rangemax - rangemin) ≤ 2147483647) :
    snd_tlv_convert_from_dB tlv rangemin rangemax db_gain xdir = .error .overflow := by
  obtain ⟨hwidth0, hwidth1, hspan⟩ := scale_width tlv rangemin rangemax h
  have hrange := h.range
  have hfits := h.fits.2
  rw [scale_top] at hfits
  have hcut : cut (block_step tlv * (rangemax - rangemin)) =
      block_step tlv * (rangemax - rangemin) - 4294967296 := by
    generalize block_step tlv * (rangemax - rangemin) = product at hwidth0 hwidth1 hwidth ⊢
    rw [cut, BitVec.toInt_ofInt]
    simp only [Int.bmod]
    omega
  have hover : int (block_min tlv + (block_step tlv * (rangemax - rangemin) - 4294967296)) = .error .overflow :=
    int_error fun hint => by
      have := hint.1
      omega
  rw [snd_tlv_convert_from_dB, convert_from_dB_scale _ _ _ _ _ _ h.block,
    tlv_from_dB_scale_eq _ _ _ _ _ h.block ⟨by omega, by omega⟩ ⟨by omega, by omega⟩, hcut, hover, error_bind]

/-- Gains are rounded to volumes, up or down as asked for, and the gain of a volume is rounded to
the volume. -/
def ScaleRounds (tlv : Words) (rangemin rangemax : Int) : Prop :=
  ∃ gain : Int → Int,
    (∀ v ∈ Set.Icc rangemin rangemax, snd_tlv_convert_to_dB tlv rangemin rangemax v = .ok (0, some (gain v))) ∧
    (∀ db_gain xdir, IsLong db_gain → ∃ v,
      snd_tlv_convert_from_dB tlv rangemin rangemax db_gain xdir = .ok (0, some v) ∧
      if xdir > 0 then RoundsUp (Set.Icc rangemin rangemax) gain rangemax db_gain v
      else RoundsDown (Set.Icc rangemin rangemax) gain rangemin db_gain v) ∧
    ∀ v ∈ Set.Icc rangemin rangemax, ∀ xdir,
      snd_tlv_convert_from_dB tlv rangemin rangemax (gain v) xdir = .ok (0, some v)

/-- The conversions round as long as the gains of the scale are no further apart than an int. -/
theorem scale_rounds_iff (tlv : Words) (rangemin rangemax : Int) (h : IsScale tlv rangemin rangemax) :
    ScaleRounds tlv rangemin rangemax ↔ block_step tlv * (rangemax - rangemin) ≤ 2147483647 := by
  constructor
  · rintro ⟨gain, -, hfrom, -⟩
    by_contra hwide
    obtain ⟨v, hv, -⟩ := hfrom 0 0 ⟨by norm_num, by norm_num⟩
    rw [scale_from_dB_overflow tlv _ _ _ _ h hwide] at hv
    cases hv
  · intro hwidth
    refine ⟨scale_gain tlv rangemin, fun v hv => scale_to_dB tlv _ _ _ h hv, fun db_gain xdir _ => ?_, ?_⟩
    · exact ⟨_, scale_from_dB tlv _ _ _ _ h hwidth, scale_volume_rounds tlv _ _ _ _ h⟩
    · intro v hv xdir
      have hmono := scale_gain_strictMono tlv rangemin rangemax h.step h.min
      have hrounds := scale_volume_rounds tlv rangemin rangemax (scale_gain tlv rangemin v) xdir h
      have hsame : scale_volume tlv rangemin rangemax (scale_gain tlv rangemin v) xdir = v := by
        split_ifs at hrounds
        · exact hrounds.of_value _ _ _ _ _ hmono hv
        · exact hrounds.of_value _ _ _ _ _ hmono hv
      rw [scale_from_dB tlv _ _ _ _ h hwidth, hsame]

/-- A scale from the mute gain up, in steps of 655.35 dB. -/
def steep_scale : Words := Words.ofList [SND_CTL_TLVT_DB_SCALE, 8#32, BitVec.ofInt 32 (-9999999), 0xffff#32]

theorem steep_scale_isScale (rangemax : Int) (h : 0 < rangemax ∧ rangemax ≤ 32769) :
    IsScale steep_scale 0 rangemax where
  block := ⟨by decide, by decide⟩
  bottom := ⟨by norm_num, by norm_num⟩
  top := ⟨by omega, by omega⟩
  range := h.1
  step := by decide
  min := by decide
  fits := by
    have hmin : block_min steep_scale = -9999999 := by decide
    have hstep : block_step steep_scale = 65535 := by decide
    rw [scale_top, hmin, hstep]
    exact ⟨by omega, by omega⟩

theorem steep_scale_rounds : ScaleRounds steep_scale 0 2 :=
  (scale_rounds_iff steep_scale 0 2 (steep_scale_isScale 2 (by norm_num))).mpr (by decide)

/-- The last gain is an int, but its distance from the first one is not. -/
theorem steep_scale_overflows :
    ¬ ∀ tlv rangemin rangemax, IsScale tlv rangemin rangemax → ScaleRounds tlv rangemin rangemax := by
  intro hall
  have hscale := steep_scale_isScale 32769 (by norm_num)
  obtain ⟨gain, -, hfrom, -⟩ := hall steep_scale 0 32769 hscale
  obtain ⟨v, hv, -⟩ := hfrom 0 0 ⟨by norm_num, by norm_num⟩
  rw [scale_from_dB_overflow steep_scale 0 32769 0 0 hscale (by decide)] at hv
  cases hv

end Salsa.Tlv
