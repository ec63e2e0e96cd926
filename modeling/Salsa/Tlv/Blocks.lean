import Salsa.Tlv.Db
import Salsa.Lib.Bits
import Salsa.Lib.Rounding

/-!
# Blocks of one range

What the conversions of a DB_SCALE, DB_MINMAX or DB_MINMAX_MUTE block come to where nothing
overflows.
-/

namespace Salsa.Tlv

open CInt

/-- A block with its header and two words of data. -/
structure IsBlock (tlv : Words) (type : BitVec 32) : Prop where
  size : 4 ≤ tlv.size
  type : tlv.word 0 = type

def block_min (tlv : Words) : Int := (tlv.word 2).toInt

def block_max (tlv : Words) : Int := (tlv.word 3).toInt

def block_step (tlv : Words) : Int := ((tlv.word 3 &&& 0xffff#32).toNat : Int)

def block_mute (tlv : Words) : Bool := (tlv.word 3).getLsbD 16

theorem IsBlock.read_type {tlv : Words} {type : BitVec 32} (h : IsBlock tlv type) : tlv.read 0 = .ok type := by
  have hsize := h.size
  rw [tlv.read_ok 0 (by omega), h.type]

theorem IsBlock.read_min {tlv : Words} {type : BitVec 32} (h : IsBlock tlv type) :
    tlv.read 2 = .ok (tlv.word 2) := by
  have hsize := h.size
  exact tlv.read_ok 2 (by omega)

theorem IsBlock.read_max {tlv : Words} {type : BitVec 32} (h : IsBlock tlv type) :
    tlv.read 3 = .ok (tlv.word 3) := by
  have hsize := h.size
  exact tlv.read_ok 3 (by omega)

theorem block_min_isInt (tlv : Words) : IsInt (block_min tlv) := toInt_isInt _

theorem block_max_isInt (tlv : Words) : IsInt (block_max tlv) := toInt_isInt _

theorem block_step_bounds (tlv : Words) : 0 ≤ block_step tlv ∧ block_step tlv ≤ 65535 := by
  have hle : (tlv.word 3 &&& 0xffff#32).toNat ≤ 0xffff := by
    rw [BitVec.toNat_and]
    exact Nat.and_le_right
  unfold block_step
  omega

/-- The steps up to a volume of the range are no more than those of the range. -/
theorem steps_bounds (tlv : Words) (rangemin rangemax volume : Int) (h : volume ∈ Set.Icc rangemin rangemax) :
    0 ≤ (volume - rangemin) * block_step tlv ∧
      (volume - rangemin) * block_step tlv ≤ block_step tlv * (rangemax - rangemin) := by
  obtain ⟨hlow, hhigh⟩ := h
  have hstep := (block_step_bounds tlv).1
  refine ⟨mul_nonneg (by omega) hstep, ?_⟩
  rw [mul_comm]
  exact mul_le_mul_of_nonneg_left (by omega) hstep

/-- The steps of a range of ints. -/
theorem step_span_bounds (tlv : Words) (rangemin rangemax : Int) (hmin : IsInt rangemin) (hmax : IsInt rangemax) :
    -281470681677825 ≤ block_step tlv * (rangemax - rangemin) ∧
      block_step tlv * (rangemax - rangemin) ≤ 281470681677825 := by
  obtain ⟨hmin0, hmin1⟩ := hmin
  obtain ⟨hmax0, hmax1⟩ := hmax
  obtain ⟨hstep0, hstep1⟩ := block_step_bounds tlv
  have hup : block_step tlv * (rangemax - rangemin) ≤ block_step tlv * 4294967295 :=
    mul_le_mul_of_nonneg_left (by omega) hstep0
  have hdown : block_step tlv * -4294967295 ≤ block_step tlv * (rangemax - rangemin) :=
    mul_le_mul_of_nonneg_left (by omega) hstep0
  omega

/-- The two tests for the mute bit, on the way to gains and back. -/
theorem mute_of_shift (v : BitVec 32) : v >>> 16 &&& 1#32 ≠ 0#32 ↔ v.getLsbD 16 = true := by
  have h := Bits.and_shift_eq_zero (v >>> 16) 0 (by decide)
  rw [BitVec.getLsbD_ushiftRight] at h
  simpa using not_congr h

theorem mute_of_mask (v : BitVec 32) : (v &&& 0x10000#32 != 0#32) = v.getLsbD 16 := by
  have h := not_congr (Bits.and_shift_eq_zero v 16 (by decide))
  rw [Bool.not_eq_false] at h
  rw [Bool.eq_iff_iff, bne_iff_ne]
  exact h

/-! ## Dispatch -/

theorem convert_to_dB_scale (fuel : Nat) (tlv : Words) (rangemin rangemax volume : Int)
    (h : IsBlock tlv SND_CTL_TLVT_DB_SCALE) :
    convert_to_dB (fuel + 1) tlv rangemin rangemax volume = tlv_to_dB_scale tlv rangemin rangemax volume := by
  rw [convert_to_dB, h.read_type]
  rfl

theorem convert_to_dB_minmax (fuel : Nat) (tlv : Words) (rangemin rangemax volume : Int)
    (h : IsBlock tlv SND_CTL_TLVT_DB_MINMAX ∨ IsBlock tlv SND_CTL_TLVT_DB_MINMAX_MUTE) :
    convert_to_dB (fuel + 1) tlv rangemin rangemax volume = tlv_to_dB_minmax tlv rangemin rangemax volume := by
  rcases h with h | h <;>
    · rw [convert_to_dB, h.read_type]
      rfl

theorem convert_from_dB_scale (fuel : Nat) (tlv : Words) (rangemin rangemax db_gain xdir : Int)
    (h : IsBlock tlv SND_CTL_TLVT_DB_SCALE) :
    convert_from_dB (fuel + 1) tlv rangemin rangemax db_gain xdir =
      tlv_from_dB_scale tlv rangemin rangemax db_gain xdir := by
  rw [convert_from_dB, h.read_type]
  rfl

theorem convert_from_dB_minmax (fuel : Nat) (tlv : Words) (rangemin rangemax db_gain xdir : Int)
    (h : IsBlock tlv SND_CTL_TLVT_DB_MINMAX ∨ IsBlock tlv SND_CTL_TLVT_DB_MINMAX_MUTE) :
    convert_from_dB (fuel + 1) tlv rangemin rangemax db_gain xdir =
      tlv_from_dB_minmax tlv rangemin rangemax db_gain xdir := by
  rcases h with h | h <;>
    · rw [convert_from_dB, h.read_type]
      rfl

/-! ## From volumes to gains -/

def scale_gain (tlv : Words) (rangemin volume : Int) : Int :=
  if block_mute tlv ∧ volume = rangemin then SND_CTL_TLV_DB_GAIN_MUTE
  else (volume - rangemin) * block_step tlv + block_min tlv

theorem tlv_to_dB_scale_eq (tlv : Words) (rangemin rangemax volume : Int) (h : IsBlock tlv SND_CTL_TLVT_DB_SCALE)
    (hdist : IsLong (volume - rangemin)) (hproduct : IsLong ((volume - rangemin) * block_step tlv))
    (hsum : IsLong ((volume - rangemin) * block_step tlv + block_min tlv)) :
    tlv_to_dB_scale tlv rangemin rangemax volume = .ok (0, some (scale_gain tlv rangemin volume)) := by
  simp only [tlv_to_dB_scale, h.read_min, h.read_max, ok_bind, mute_of_shift]
  rw [scale_gain, block_mute]
  split_ifs
  · rfl
  · rw [hdist.ok, ok_bind]
    rw [block_step] at hproduct hsum ⊢
    rw [hproduct.ok, ok_bind]
    rw [block_min] at hsum ⊢
    rw [hsum.ok]
    rfl

/-- The gain at the bottom of the range. -/
def minmax_bottom (tlv : Words) : Int :=
  if tlv.word 0 = SND_CTL_TLVT_DB_MINMAX_MUTE then SND_CTL_TLV_DB_GAIN_MUTE else block_min tlv

def minmax_gain (tlv : Words) (rangemin rangemax volume : Int) : Int :=
  if volume ≤ rangemin ∨ rangemax ≤ rangemin then minmax_bottom tlv
  else if volume ≥ rangemax then block_max tlv
  else (block_max tlv - block_min tlv) * (volume - rangemin) / (rangemax - rangemin) + block_min tlv

theorem minmax_size (tlv : Words)
    (h : IsBlock tlv SND_CTL_TLVT_DB_MINMAX ∨ IsBlock tlv SND_CTL_TLVT_DB_MINMAX_MUTE) : 4 ≤ tlv.size :=
  h.elim IsBlock.size IsBlock.size

theorem minmax_gain_bounds (tlv : Words) (rangemin rangemax volume : Int) (hlow : rangemin < volume)
    (hhigh : volume < rangemax) (hwidth : block_min tlv ≤ block_max tlv) :
    0 ≤ (block_max tlv - block_min tlv) * (volume - rangemin) ∧
      0 ≤ (block_max tlv - block_min tlv) * (volume - rangemin) / (rangemax - rangemin) ∧
      (block_max tlv - block_min tlv) * (volume - rangemin) / (rangemax - rangemin) ≤
        block_max tlv - block_min tlv := by
  have hproduct : 0 ≤ (block_max tlv - block_min tlv) * (volume - rangemin) :=
    mul_nonneg (by omega) (by omega)
  refine ⟨hproduct, Int.ediv_nonneg hproduct (by omega), ?_⟩
  apply Int.ediv_le_of_le_mul (by omega)
  exact mul_le_mul_of_nonneg_left (by omega) (by omega)

/-- The conversion of a volume between the ends: only the product may not fit. -/
theorem tlv_to_dB_minmax_between (tlv : Words) (rangemin rangemax volume : Int) (hsize : 4 ≤ tlv.size)
    (hlow : rangemin < volume) (hhigh : volume < rangemax) (hspan : IsLong (rangemax - rangemin))
    (hwidth : block_min tlv ≤ block_max tlv) (hdiff : IsInt (block_max tlv - block_min tlv)) :
    tlv_to_dB_minmax tlv rangemin rangemax volume = do
      let _ ← long ((block_max tlv - block_min tlv) * (volume - rangemin))
      return (0, some (minmax_gain tlv rangemin rangemax volume)) := by
  obtain ⟨hproduct, hquot, hquot'⟩ := minmax_gain_bounds tlv _ _ _ hlow hhigh hwidth
  have hdist : IsLong (volume - rangemin) := by
    obtain ⟨-, hspan⟩ := hspan
    exact ⟨by omega, by omega⟩
  have hsum : IsLong ((block_max tlv - block_min tlv) * (volume - rangemin) / (rangemax - rangemin) +
      block_min tlv) := by
    obtain ⟨hmin0, -⟩ := block_min_isInt tlv
    obtain ⟨-, hmax1⟩ := block_max_isInt tlv
    exact ⟨by omega, by omega⟩
  rw [minmax_gain, if_neg (by omega), if_neg (by omega), tlv_to_dB_minmax, tlv.read_ok 2 (by omega),
    tlv.read_ok 3 (by omega)]
  simp only [ok_bind]
  rw [if_neg (by omega), if_neg (by omega), ← block_min, ← block_max, hdiff.ok, hdist.ok]
  simp only [ok_bind]
  by_cases hlong : IsLong ((block_max tlv - block_min tlv) * (volume - rangemin))
  · rw [hlong.ok, ok_bind, hspan.ok, ok_bind, divide_ok _ _ hproduct hlong (by omega), ok_bind, hsum.ok]
    rfl
  · rw [long_error hlong]
    rfl

/-- At the ends nothing is computed. -/
theorem tlv_to_dB_minmax_end (tlv : Words) (rangemin rangemax volume : Int) (hsize : 4 ≤ tlv.size)
    (hend : ¬ (rangemin < volume ∧ volume < rangemax)) :
    tlv_to_dB_minmax tlv rangemin rangemax volume = .ok (0, some (minmax_gain tlv rangemin rangemax volume)) := by
  rw [minmax_gain, tlv_to_dB_minmax, tlv.read_ok 2 (by omega), tlv.read_ok 3 (by omega), tlv.read_ok 0 (by omega),
    minmax_bottom]
  simp only [ok_bind]
  split_ifs
  · rfl
  · rfl
  · rfl
  · omega

/-! ## From gains to volumes -/

/-- The volume for a gain, where nothing overflows. -/
def gain_volume (rangemin rangemax db_gain xdir min max : Int) (have_mute : Bool) : Int :=
  if db_gain ≤ min then
    if db_gain > SND_CTL_TLV_DB_GAIN_MUTE ∧ xdir > 0 ∧ have_mute then rangemin + 1 else rangemin
  else if db_gain ≥ max then rangemax
  else ((db_gain - min) * (rangemax - rangemin) + if xdir > 0 then max - min - 1 else 0) / (max - min) + rangemin

/-- Between the ends the volume stays between the ends. -/
theorem scaled_bounds (gain range width extra : Int) (hgain : 0 < gain ∧ gain < width) (hrange : 0 ≤ range)
    (hextra : 0 ≤ extra ∧ extra < width) :
    0 ≤ (gain * range + extra) / width ∧ (gain * range + extra) / width ≤ range := by
  obtain ⟨hgain, hlt⟩ := hgain
  have hproduct : 0 ≤ gain * range := mul_nonneg hgain.le hrange
  constructor
  · exact Int.ediv_nonneg (by omega) (by omega)
  · rw [← Int.lt_add_one_iff, Int.ediv_lt_iff_lt_mul (by omega)]
    have hle : gain * range ≤ width * range := mul_le_mul_of_nonneg_right hlt.le hrange
    rw [add_mul, one_mul, mul_comm range width]
    omega

theorem scaled_isLong (gain range extra width : Int) (hgain : 0 < gain ∧ gain < width) (hwidth : width ≤ 2147483647)
    (hrange : 0 ≤ range ∧ range ≤ 4294967296) (hextra : 0 ≤ extra ∧ extra < width) :
    0 ≤ gain * range + extra ∧ IsLong (gain * range + extra) := by
  have hlow : 0 ≤ gain * range := mul_nonneg hgain.1.le hrange.1
  have hhigh : gain * range ≤ 2147483646 * 4294967296 := by
    exact mul_le_mul (by omega) hrange.2 hrange.1 (by norm_num)
  exact ⟨by omega, by omega, by omega⟩

/-- The conversion between the ends, on a block whose gains are no further apart than an int. -/
theorem _tlv_from_dB_minmax_between (rangemin rangemax db_gain xdir min max : Int) (have_mute : Bool)
    (hmin : IsLong rangemin) (hmax : IsLong rangemax) (hrange : 0 ≤ rangemax - rangemin)
    (hwide : rangemax - rangemin ≤ 4294967296) (hlow : min < db_gain) (hhigh : db_gain < max)
    (hwidth : max - min ≤ 2147483647) :
    _tlv_from_dB_minmax rangemin rangemax db_gain xdir min max have_mute =
      .ok (gain_volume rangemin rangemax db_gain xdir min max have_mute) := by
  have hgain : 0 < db_gain - min ∧ db_gain - min < max - min := by omega
  have hdist : IsLong (db_gain - min) := ⟨by omega, by omega⟩
  have hspan : IsLong (rangemax - rangemin) := ⟨by omega, by omega⟩
  have hdiff : IsInt (max - min) := ⟨by omega, by omega⟩
  have hextra : IsInt (max - min - 1) := ⟨by omega, by omega⟩
  have hextra' : 0 ≤ (if xdir > 0 then max - min - 1 else 0) ∧
      (if xdir > 0 then max - min - 1 else 0) < max - min := by
    split_ifs <;> omega
  obtain ⟨-, hproduct⟩ := scaled_isLong _ _ 0 _ hgain hwidth ⟨hrange, hwide⟩ (by omega)
  obtain ⟨hnonneg, hsum⟩ := scaled_isLong _ _ _ _ hgain hwidth ⟨hrange, hwide⟩ hextra'
  obtain ⟨hq0, hq1⟩ := scaled_bounds _ _ _ _ hgain hrange hextra'
  rw [add_zero] at hproduct
  rw [_tlv_from_dB_minmax, gain_volume, if_neg (by omega), if_neg (by omega), if_neg (by omega), if_neg (by omega),
    hdist.ok, ok_bind, hspan.ok, ok_bind, hproduct.ok, ok_bind]
  have hquot : IsLong (((db_gain - min) * (rangemax - rangemin) + if xdir > 0 then max - min - 1 else 0) /
      (max - min) + rangemin) := by
    obtain ⟨hmin1, -⟩ := hmin
    obtain ⟨-, hmax2⟩ := hmax
    exact ⟨by omega, by omega⟩
  split_ifs at hsum hnonneg hquot ⊢
  · simp only [hdiff.ok, hextra.ok, hsum.ok, ok_bind, divide_ok _ _ hnonneg hsum (by omega : 0 < max - min),
      hquot.ok]
  · rw [add_zero] at hsum hnonneg hquot ⊢
    simp only [pure_bind, hdiff.ok, ok_bind, divide_ok _ _ hnonneg hsum (by omega : 0 < max - min), hquot.ok]

/-- What the conversion of a gain comes to, where the gains of the block are no further apart than
an int. -/
theorem _tlv_from_dB_minmax_eq (rangemin rangemax db_gain xdir min max : Int) (have_mute : Bool)
    (hmin : IsLong rangemin) (hmax : IsLong rangemax) (hrange : 0 ≤ rangemax - rangemin)
    (hwide : rangemax - rangemin ≤ 4294967296) (hnext : IsLong (rangemin + 1))
    (hwidth : min < db_gain → db_gain < max → max - min ≤ 2147483647) :
    _tlv_from_dB_minmax rangemin rangemax db_gain xdir min max have_mute =
      .ok (gain_volume rangemin rangemax db_gain xdir min max have_mute) := by
  by_cases hlow : db_gain ≤ min
  · rw [_tlv_from_dB_minmax, gain_volume, if_pos hlow, if_pos hlow]
    split_ifs
    · exact hnext.ok
    · rfl
  · by_cases hhigh : db_gain ≥ max
    · rw [_tlv_from_dB_minmax, gain_volume, if_neg hlow, if_neg hlow, if_pos hhigh, if_pos hhigh]
      rfl
    · exact _tlv_from_dB_minmax_between _ _ _ _ _ _ _ hmin hmax hrange hwide (by omega) (by omega)
        (hwidth (by omega) (by omega))

/-- Between ends further apart than an int their difference overflows. -/
theorem _tlv_from_dB_minmax_overflow (rangemin rangemax db_gain xdir min max : Int) (have_mute : Bool)
    (hlow : min < db_gain) (hhigh : db_gain < max) (hwidth : 2147483647 < max - min) :
    _tlv_from_dB_minmax rangemin rangemax db_gain xdir min max have_mute = .error .overflow := by
  have hdiff : int (max - min) = .error .overflow := int_error fun h => by
    have := h.2
    omega
  rw [_tlv_from_dB_minmax, if_neg (by omega), if_neg (by omega)]
  rcases long_cases (db_gain - min) with h | h <;> rw [h]
  · rcases long_cases (rangemax - rangemin) with h | h <;> rw [h]
    · rcases long_cases ((db_gain - min) * (rangemax - rangemin)) with h | h <;>
        split_ifs <;> simp [h, hdiff]
    · rfl
  · rfl

end Salsa.Tlv
