import Salsa.Tlv.Gains

/-!
# What came off

A conversion or a report that ended with a result, read backwards: which block it met, and what it
computed from it. Nothing is assumed of the block or of its range.
-/

namespace Salsa.Tlv

open CInt

theorem read_eq_ok (tlv : Words) (i : Nat) (v : BitVec 32) (h : tlv.read i = .ok v) :
    v = tlv.word i ∧ i < tlv.size := by
  unfold Words.read at h
  split at h
  · cases h
    exact ⟨rfl, by assumption⟩
  · cases h

theorem read_cases (tlv : Words) (i : Nat) : tlv.read i = .ok (tlv.word i) ∨ tlv.read i = .error .read := by
  by_cases hi : i < tlv.size
  · exact Or.inl (tlv.read_ok i hi)
  · exact Or.inr (tlv.read_error i hi)

/-! ## Volumes to gains -/

theorem tlv_to_dB_scale_ok (tlv : Words) (rangemin rangemax volume : Int) (r : Int × Option Int)
    (h : tlv_to_dB_scale tlv rangemin rangemax volume = .ok r) :
    r = (0, some (scale_gain tlv rangemin volume)) := by
  simp only [tlv_to_dB_scale, bind_eq_ok] at h
  obtain ⟨min, hmin, step, hstep, mute, hmute, h⟩ := h
  obtain ⟨rfl, -⟩ := read_eq_ok _ _ _ hmin
  obtain ⟨rfl, -⟩ := read_eq_ok _ _ _ hstep
  obtain ⟨rfl, -⟩ := read_eq_ok _ _ _ hmute
  simp only [mute_of_shift] at h
  unfold scale_gain block_mute block_step block_min
  split_ifs at h ⊢
  · cases h
    rfl
  · simp only [bind_eq_ok] at h
    obtain ⟨dist, hdist, product, hproduct, sum, hsum, h⟩ := h
    cases h
    rw [long_eq_ok _ _ hsum, long_eq_ok _ _ hproduct, long_eq_ok _ _ hdist]

/-! ## Reports -/

theorem tlv_range_dB_scale_ok (tlv : Words) (rangemin rangemax : Int) (r : Int × Option (Int × Int))
    (htype : tlv.word 0 = SND_CTL_TLVT_DB_SCALE) (h : tlv_range_dB_scale tlv rangemin rangemax = .ok r) :
    4 ≤ tlv.size ∧ r = (0, some (block_low tlv, block_high tlv rangemin rangemax)) := by
  simp only [tlv_range_dB_scale, bind_eq_ok] at h
  obtain ⟨w, hw, h⟩ := h
  obtain ⟨rfl, hsize⟩ := read_eq_ok _ _ _ hw
  refine ⟨hsize, ?_⟩
  rw [block_low, mutes, if_pos htype, block_mute, block_high, if_pos htype, scale_top, block_min, block_step]
  simp only [mute_of_and] at h
  split_ifs at h ⊢
  · simp only [pure_bind, bind_eq_ok] at h
    obtain ⟨v, hv, span, hspan, product, hproduct, max, hmax, h⟩ := h
    obtain ⟨rfl, -⟩ := read_eq_ok _ _ _ hv
    cases h
    rw [long_eq_ok _ _ hmax, long_eq_ok _ _ hproduct, long_eq_ok _ _ hspan]
  · simp only [map_eq_pure_bind, bind_eq_ok] at h
    obtain ⟨min, ⟨v, hv, hmin⟩, v', hv', span, hspan, product, hproduct, max, hmax, h⟩ := h
    obtain ⟨rfl, -⟩ := read_eq_ok _ _ _ hv
    obtain ⟨rfl, -⟩ := read_eq_ok _ _ _ hv'
    cases hmin
    cases h
    rw [long_eq_ok _ _ hmax, long_eq_ok _ _ hproduct, long_eq_ok _ _ hspan]

/-- The cap on the top of an entry. -/
theorem capped (rangemax submax : Int) : (if rangemax < submax then rangemax else submax) = min rangemax submax := by
  split_ifs <;> omega

/-- The types with two words of data. -/
def is_leaf_type (type : BitVec 32) : Bool :=
  type == SND_CTL_TLVT_DB_SCALE || type == SND_CTL_TLVT_DB_LINEAR || type == SND_CTL_TLVT_DB_MINMAX
    || type == SND_CTL_TLVT_DB_MINMAX_MUTE

theorem not_range_of_leaf (type : BitVec 32) (h : is_leaf_type type) : type ≠ SND_CTL_TLVT_DB_RANGE := by
  rintro rfl
  exact absurd h (by decide)

/-- A report comes off a block with two words of data, as the ends of its header, or the type is
another one. -/
theorem get_dB_range_leaf (fuel : Nat) (tlv : Words) (rangemin rangemax : Int) (out : Option (Int × Int))
    (r : Int × Option (Int × Int)) (hrange : tlv.word 0 ≠ SND_CTL_TLVT_DB_RANGE)
    (h : get_dB_range fuel tlv rangemin rangemax out = .ok r) :
    (is_leaf_type (tlv.word 0) ∧ 4 ≤ tlv.size ∧
        r = (0, some (block_low tlv, block_high tlv rangemin rangemax))) ∨
      (¬ is_leaf_type (tlv.word 0) ∧ r = (-EINVAL, out)) := by
  cases fuel with
  | zero => cases h
  | succ fuel =>
    simp only [get_dB_range, bind_eq_ok] at h
    obtain ⟨type, htype, h⟩ := h
    obtain ⟨rfl, -⟩ := read_eq_ok _ _ _ htype
    rw [if_neg hrange] at h
    split_ifs at h with hscale hminmax hmute
    · obtain ⟨hsize, hr⟩ := tlv_range_dB_scale_ok tlv _ _ _ hscale h
      exact Or.inl ⟨by rw [hscale]; decide, hsize, hr⟩
    · simp only [bind_eq_ok] at h
      obtain ⟨min, hmin, max, hmax, h⟩ := h
      obtain ⟨rfl, -⟩ := read_eq_ok _ _ _ hmin
      obtain ⟨rfl, hsize⟩ := read_eq_ok _ _ _ hmax
      cases h
      refine Or.inl ⟨by rcases hminmax with h | h <;> rw [h] <;> decide, hsize, ?_⟩
      have hmutes : mutes tlv = false := by
        rw [mutes, if_neg hscale]
        rcases hminmax with h | h <;> rw [h] <;> decide
      rw [block_low, hmutes, block_high, if_neg hscale]
      rfl
    · simp only [bind_eq_ok] at h
      obtain ⟨max, hmax, h⟩ := h
      obtain ⟨rfl, hsize⟩ := read_eq_ok _ _ _ hmax
      cases h
      refine Or.inl ⟨by rw [hmute]; decide, hsize, ?_⟩
      have hmutes : mutes tlv = true := by
        rw [mutes, if_neg hscale, hmute]
        decide
      rw [block_low, hmutes, block_high, if_neg hscale]
      rfl
    · cases h
      refine Or.inr ⟨?_, rfl⟩
      simp only [not_or] at hminmax
      simp [is_leaf_type, hscale, hminmax, hmute]

/-- A report of a DB_RANGE block: none is made where the block is too long or too short for an entry;
else its entries are gone through. -/
theorem get_dB_range_range (fuel : Nat) (tlv : Words) (rangemin rangemax : Int) (out : Option (Int × Int))
    (r : Int × Option (Int × Int)) (hrange : tlv.word 0 = SND_CTL_TLVT_DB_RANGE)
    (h : get_dB_range fuel tlv rangemin rangemax out = .ok r) :
    (MAX_TLV_RANGE_SIZE < int_index (tlv.word 1) ∧ r = (-EINVAL, out)) ∨
      (int_index (tlv.word 1) < 6 ∧ r = (0, out)) ∨
      ∃ fuel', range_dB_range_loop (fuel' + 1) tlv (int_index (tlv.word 1)) 2 rangemax out = .ok r ∧
        6 ≤ int_index (tlv.word 1) := by
  cases fuel with
  | zero => cases h
  | succ fuel =>
    simp only [get_dB_range, bind_eq_ok] at h
    obtain ⟨type, htype, h⟩ := h
    obtain ⟨rfl, -⟩ := read_eq_ok _ _ _ htype
    rw [if_pos hrange] at h
    simp only [bind_eq_ok] at h
    obtain ⟨size, hsize, h⟩ := h
    obtain ⟨rfl, -⟩ := read_eq_ok _ _ _ hsize
    split_ifs at h with hlong
    · cases h
      exact Or.inl ⟨hlong, rfl⟩
    cases fuel with
    | zero => cases h
    | succ fuel =>
      by_cases hlen : 6 ≤ int_index (tlv.word 1)
      · exact Or.inr (Or.inr ⟨fuel, h, hlen⟩)
      · rw [range_dB_range_loop, if_neg (by omega)] at h
        cases h
        exact Or.inr (Or.inl ⟨by omega, rfl⟩)

/-- A round of the report: what comes of its entry ends it, or goes into what the next round starts
from. -/
theorem range_dB_range_loop_ok (fuel : Nat) (tlv : Words) (len pos : Nat) (rangemax : Int)
    (out : Option (Int × Int)) (r : Int × Option (Int × Int)) (hpos : pos + 4 ≤ len)
    (h : range_dB_range_loop (fuel + 1) tlv len pos rangemax out = .ok r) :
    ∃ err sub, pos + 1 < tlv.size ∧
      get_dB_range fuel (tlv.skip (pos + 2)) (tlv.word pos).toInt (min rangemax (tlv.word (pos + 1)).toInt) none =
        .ok (err, sub) ∧
      (err < 0 → r = (err, out)) ∧
      (0 ≤ err → ∃ merged, (pos = 2 → sub = some merged) ∧
        (r = (0, some merged) ∨ (tlv.word (pos + 1)).toInt < rangemax ∧
          range_dB_range_loop fuel tlv len (pos + 3 + int_index (tlv.word (pos + 3)) + 1) rangemax (some merged) =
            .ok r)) := by
  rw [range_dB_range_loop, if_pos hpos] at h
  simp only [bind_eq_ok] at h
  obtain ⟨submin, hsubmin, submax, hsubmax, ⟨err, sub⟩, hsub, h⟩ := h
  obtain ⟨rfl, -⟩ := read_eq_ok _ _ _ hsubmin
  obtain ⟨rfl, hsize⟩ := read_eq_ok _ _ _ hsubmax
  rw [capped] at hsub h
  refine ⟨err, sub, hsize, hsub, ?_, ?_⟩
  · intro herr
    simp only [if_pos herr] at h
    cases h
    rfl
  · intro herr
    simp only [if_neg (not_lt.mpr herr)] at h
    -- The end of the round, from whatever it has merged.
    have hrest : ∀ merged, (if rangemax = min rangemax (tlv.word (pos + 1)).toInt then pure (0, some merged) else do
          let size ← tlv.read (pos + 3)
          range_dB_range_loop fuel tlv len (pos + 3 + int_index size + 1) rangemax (some merged)) = .ok r →
        r = (0, some merged) ∨ (tlv.word (pos + 1)).toInt < rangemax ∧
          range_dB_range_loop fuel tlv len (pos + 3 + int_index (tlv.word (pos + 3)) + 1) rangemax (some merged) =
            .ok r := by
      intro merged hmerged
      split_ifs at hmerged
      · cases hmerged
        exact Or.inl rfl
      · simp only [bind_eq_ok] at hmerged
        obtain ⟨size, hsize, hmerged⟩ := hmerged
        obtain ⟨rfl, -⟩ := read_eq_ok _ _ _ hsize
        exact Or.inr ⟨by omega, hmerged⟩
    cases sub with
    | none => cases h
    | some sub =>
      obtain ⟨rmin, rmax⟩ := sub
      simp only at h
      by_cases hfirst : pos + 2 > 4
      · rw [if_pos hfirst] at h
        cases out with
        | none => cases h
        | some out => exact ⟨_, fun hpos => by omega, hrest _ h⟩
      · rw [if_neg hfirst] at h
        exact ⟨_, fun _ => rfl, hrest _ h⟩

/-! ## Gains to volumes -/

/-- The volume of a conversion: the bottom of the range, its top, or a share of it. -/
theorem _tlv_from_dB_minmax_ok (rangemin rangemax db_gain xdir dbmin dbmax v : Int) (have_mute : Bool)
    (h : _tlv_from_dB_minmax rangemin rangemax db_gain xdir dbmin dbmax have_mute = .ok v) :
    (db_gain ≤ dbmin ∧ (v = rangemin ∨ v = rangemin + 1)) ∨
      (dbmin < db_gain ∧ dbmax ≤ db_gain ∧ v = rangemax) ∨
      (dbmin < db_gain ∧ db_gain < dbmax ∧
        v = ((db_gain - dbmin) * (rangemax - rangemin) + if xdir > 0 then dbmax - dbmin - 1 else 0).tdiv
          (dbmax - dbmin) + rangemin) := by
  unfold _tlv_from_dB_minmax at h
  split_ifs at h with hlow hmute hhigh hxdir
  · exact Or.inl ⟨hlow, Or.inr (long_eq_ok _ _ h)⟩
  · cases h
    exact Or.inl ⟨hlow, Or.inl rfl⟩
  · cases h
    exact Or.inr (Or.inl ⟨by omega, hhigh, rfl⟩)
  · refine Or.inr (Or.inr ⟨by omega, by omega, ?_⟩)
    simp only [bind_eq_ok] at h
    obtain ⟨dist, hdist, span, hspan, product, hproduct, diff, hdiff, extra, hextra, sum, hsum, diff', hdiff', quot,
      hquot, h⟩ := h
    rw [if_pos hxdir, long_eq_ok _ _ h, divide_eq_ok _ _ _ hquot, long_eq_ok _ _ hsum, int_eq_ok _ _ hdiff',
      int_eq_ok _ _ hextra, int_eq_ok _ _ hdiff, long_eq_ok _ _ hproduct, long_eq_ok _ _ hspan, long_eq_ok _ _ hdist]
  · refine Or.inr (Or.inr ⟨by omega, by omega, ?_⟩)
    simp only [bind_eq_ok, pure_bind] at h
    obtain ⟨dist, hdist, span, hspan, product, hproduct, diff', hdiff', quot, hquot, h⟩ := h
    rw [if_neg hxdir, add_zero, long_eq_ok _ _ h, divide_eq_ok _ _ _ hquot, int_eq_ok _ _ hdiff',
      long_eq_ok _ _ hproduct, long_eq_ok _ _ hspan, long_eq_ok _ _ hdist]

/-- Division towards 0 is not below a multiple of the divisor that its dividend is not below. -/
theorem le_tdiv (x y c : Int) (hy : 0 < y) (hc : c ≤ 0) (h : c * y ≤ x) : c ≤ x.tdiv y := by
  rcases le_total 0 x with hx | hx
  · have hnonneg := Int.tdiv_nonneg hx hy.le
    omega
  · have hneg : (-x) / y ≤ -c := Int.ediv_le_of_le_mul hy (by rw [neg_mul]; omega)
    have htdiv : x.tdiv y = -((-x) / y) := by
      rw [← Int.tdiv_eq_ediv_of_nonneg (by omega), Int.neg_tdiv, neg_neg]
    omega

/-- No volume is below both ends of its range, also where these are the wrong way round. -/
theorem _tlv_from_dB_minmax_ge (rangemin rangemax db_gain xdir dbmin dbmax v : Int) (have_mute : Bool)
    (h : _tlv_from_dB_minmax rangemin rangemax db_gain xdir dbmin dbmax have_mute = .ok v) :
    rangemin ≤ v ∨ rangemax ≤ v := by
  rcases _tlv_from_dB_minmax_ok _ _ _ _ _ _ _ _ h with ⟨-, hv | hv⟩ | ⟨-, -, hv⟩ | ⟨hlow, hhigh, hv⟩
  · omega
  · omega
  · omega
  · have hextra : 0 ≤ if xdir > 0 then dbmax - dbmin - 1 else 0 := by
      split_ifs <;> omega
    rcases le_total rangemin rangemax with hrange | hrange
    · have hproduct : 0 ≤ (db_gain - dbmin) * (rangemax - rangemin) := mul_nonneg (by omega) (by omega)
      have hquot := le_tdiv ((db_gain - dbmin) * (rangemax - rangemin) + if xdir > 0 then dbmax - dbmin - 1 else 0)
        (dbmax - dbmin) 0 (by omega) le_rfl (by omega)
      omega
    · have hproduct : (db_gain - dbmin) * (rangemin - rangemax) ≤ (dbmax - dbmin) * (rangemin - rangemax) :=
        mul_le_mul_of_nonneg_right (by omega) (by omega)
      have hquot := le_tdiv ((db_gain - dbmin) * (rangemax - rangemin) + if xdir > 0 then dbmax - dbmin - 1 else 0)
        (dbmax - dbmin) (rangemax - rangemin) (by omega) (by omega) (by linarith)
      omega

theorem _tlv_from_dB_minmax_le (rangemin rangemax db_gain xdir dbmin dbmax v : Int) (have_mute : Bool)
    (hrange : rangemin < rangemax)
    (h : _tlv_from_dB_minmax rangemin rangemax db_gain xdir dbmin dbmax have_mute = .ok v) : v ≤ rangemax := by
  rcases _tlv_from_dB_minmax_ok _ _ _ _ _ _ _ _ h with ⟨-, hv | hv⟩ | ⟨-, -, hv⟩ | ⟨hlow, hhigh, hv⟩
  · omega
  · omega
  · omega
  · have hextra : 0 ≤ (if xdir > 0 then dbmax - dbmin - 1 else 0) ∧
        (if xdir > 0 then dbmax - dbmin - 1 else 0) < dbmax - dbmin := by
      split_ifs <;> omega
    have hproduct : 0 ≤ (db_gain - dbmin) * (rangemax - rangemin) := mul_nonneg (by omega) (by omega)
    obtain ⟨-, hquot⟩ := scaled_bounds (db_gain - dbmin) (rangemax - rangemin) (dbmax - dbmin) _ (by omega)
      (by omega) hextra
    rw [Int.tdiv_eq_ediv_of_nonneg (by omega)] at hv
    omega

/-- A volume comes off a DB_SCALE, DB_MINMAX or DB_MINMAX_MUTE block, from the bottom of its gains. -/
theorem convert_from_dB_ok (fuel : Nat) (tlv : Words) (rangemin rangemax db_gain xdir v : Int)
    (hrange : tlv.word 0 ≠ SND_CTL_TLVT_DB_RANGE)
    (h : convert_from_dB fuel tlv rangemin rangemax db_gain xdir = .ok (0, some v)) :
    ∃ top, _tlv_from_dB_minmax rangemin rangemax db_gain xdir (block_min tlv) top (mutes tlv) = .ok v ∧
      (tlv.word 0 = SND_CTL_TLVT_DB_SCALE ∨
        (tlv.word 0 = SND_CTL_TLVT_DB_MINMAX ∨ tlv.word 0 = SND_CTL_TLVT_DB_MINMAX_MUTE) ∧ top = block_max tlv) := by
  cases fuel with
  | zero => cases h
  | succ fuel =>
    simp only [convert_from_dB, bind_eq_ok] at h
    obtain ⟨type, htype, h⟩ := h
    obtain ⟨rfl, -⟩ := read_eq_ok _ _ _ htype
    rw [if_neg hrange] at h
    split_ifs at h with hscale hminmax
    · simp only [tlv_from_dB_scale, bind_eq_ok] at h
      obtain ⟨w2, hw2, w3, hw3, span, -, product, -, top, -, w3', hw3', v', hv', h⟩ := h
      obtain ⟨rfl, -⟩ := read_eq_ok _ _ _ hw2
      obtain ⟨rfl, -⟩ := read_eq_ok _ _ _ hw3'
      cases h
      refine ⟨top, ?_, Or.inl hscale⟩
      rw [mutes, if_pos hscale, block_mute, ← mute_of_mask]
      exact hv'
    · simp only [tlv_from_dB_minmax, bind_eq_ok] at h
      obtain ⟨w2, hw2, w3, hw3, w0, hw0, v', hv', h⟩ := h
      obtain ⟨rfl, -⟩ := read_eq_ok _ _ _ hw2
      obtain ⟨rfl, -⟩ := read_eq_ok _ _ _ hw3
      obtain ⟨rfl, -⟩ := read_eq_ok _ _ _ hw0
      cases h
      refine ⟨block_max tlv, ?_, Or.inr ⟨hminmax, rfl⟩⟩
      rw [mutes, if_neg hscale]
      exact hv'
    · cases h

/-- A round of `tlv_from_dB_range`: the conversion of the block, the bottom of the range, its top, or the
next round. -/
theorem from_dB_range_loop_ok (fuel : Nat) (tlv : Words) (len pos : Nat) (prev_submax rangemax db_gain xdir v : Int)
    (db : Option (Int × Int)) (hpos : pos + 4 ≤ len)
    (h : from_dB_range_loop (fuel + 1) tlv len pos prev_submax db rangemax db_gain xdir = .ok (0, some v)) :
    ∃ err dbmin dbmax,
      get_dB_range fuel (tlv.skip (pos + 4)) (tlv.word pos).toInt (min rangemax (tlv.word (pos + 1)).toInt) db =
        .ok (err, some (dbmin, dbmax)) ∧
      ((err = 0 ∧ dbmin ≤ db_gain ∧ db_gain ≤ dbmax ∧
          convert_from_dB fuel (tlv.skip (pos + 4)) (tlv.word pos).toInt (min rangemax (tlv.word (pos + 1)).toInt)
            db_gain xdir = .ok (0, some v)) ∨
        (db_gain < dbmin ∧ v = if xdir > 0 ∨ pos = 0 then (tlv.word pos).toInt else prev_submax) ∨
        (dbmin ≤ db_gain ∧ (err = 0 → dbmax < db_gain) ∧
          (rangemax = min rangemax (tlv.word (pos + 1)).toInt ∧ v = rangemax ∨
            rangemax ≠ min rangemax (tlv.word (pos + 1)).toInt ∧
              from_dB_range_loop fuel tlv len (pos + 6 + int_index (tlv.word (pos + 5)))
                (min rangemax (tlv.word (pos + 1)).toInt) (some (dbmin, dbmax)) rangemax db_gain xdir =
                .ok (0, some v)))) := by
  rw [from_dB_range_loop, if_pos hpos] at h
  simp only [bind_eq_ok] at h
  obtain ⟨submin, hsubmin, submax, hsubmax, ⟨err, db'⟩, hreport, h⟩ := h
  obtain ⟨rfl, -⟩ := read_eq_ok _ _ _ hsubmin
  obtain ⟨rfl, -⟩ := read_eq_ok _ _ _ hsubmax
  rw [capped] at hreport h
  cases db' with
  | none => cases h
  | some d =>
    obtain ⟨dbmin, dbmax⟩ := d
    refine ⟨err, dbmin, dbmax, hreport, ?_⟩
    simp only at h
    split_ifs at h with hbetween hlow hdir htop
    · exact Or.inl ⟨hbetween.1, hbetween.2.1, hbetween.2.2, h⟩
    · cases h
      exact Or.inr (Or.inl ⟨hlow, by rw [if_pos (by omega)]⟩)
    · cases h
      exact Or.inr (Or.inl ⟨hlow, by rw [if_neg (by omega)]⟩)
    · cases h
      exact Or.inr (Or.inr ⟨by omega, by omega, Or.inl ⟨htop, htop.symm⟩⟩)
    · simp only [bind_eq_ok] at h
      obtain ⟨size, hsize, h⟩ := h
      obtain ⟨rfl, -⟩ := read_eq_ok _ _ _ hsize
      have hnext : pos + 2 + int_index (tlv.word (pos + 2 + 3)) + 4 = pos + 6 + int_index (tlv.word (pos + 5)) := by
        rw [Nat.add_assoc pos 2 3]
        omega
      rw [hnext] at h
      exact Or.inr (Or.inr ⟨by omega, by omega, Or.inr ⟨htop, h⟩⟩)

end Salsa.Tlv
