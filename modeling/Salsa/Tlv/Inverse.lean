import Salsa.Tlv.ScaleRange

/-!
# A DB_RANGE block there and back

`tlv_from_dB_range` takes the block of an entry from two words behind its place, where the minimum and
the step of the entry stand for a type and a size. A gain of the block hardly ever comes back to its
volume, and there is no block all of whose gains do.
-/

namespace Salsa.Tlv

open CInt

/-- The gain of a volume comes back, to a volume with the same gain. -/
def RangeRoundTrips (tlv : Words) (rangemin rangemax volume xdir : Int) : Prop :=
  ∃ gain v, snd_tlv_convert_to_dB tlv rangemin rangemax volume = .ok (0, some gain) ∧
    snd_tlv_convert_from_dB tlv rangemin rangemax gain xdir = .ok (0, some v) ∧
    snd_tlv_convert_to_dB tlv rangemin rangemax v = .ok (0, some gain)

/-! ## The rounds -/

/-- A report at `pos` that leaves what there was, or after which one of the two gains does not come
back. -/
def Misleads (tlv : Words) (pos : Nat) (rangemax : Int) (db : Option (Int × Int))
    (r : Int × Option (Int × Int)) : Prop :=
  r.2 = db ∨
    ∃ dbmin dbmax, r = (0, some (dbmin, dbmax)) ∧
      (first_gain tlv < dbmin → (tlv.word pos).toInt ≠ entry_min tlv 1 ∨ second_gain tlv < dbmin) ∧
      (dbmin ≤ first_gain tlv → first_gain tlv ≤ dbmax → ∀ fuel v,
        convert_from_dB fuel (tlv.skip (pos + 4)) (tlv.word pos).toInt (min rangemax (tlv.word (pos + 1)).toInt)
          (first_gain tlv) 1 = .ok (0, some v) → v ≠ entry_min tlv 1)

/-- The report that the round at `pos` asks for is `r`. -/
def RoundReport (tlv : Words) (pos : Nat) (rangemax : Int) (db : Option (Int × Int)) (fuel : Nat)
    (r : Int × Option (Int × Int)) : Prop :=
  get_dB_range fuel (tlv.skip (pos + 4)) (tlv.word pos).toInt (min rangemax (tlv.word (pos + 1)).toInt) db = .ok r

theorem unknown_type (type : BitVec 32) (h : type.toInt < 1 ∨ 5 < type.toInt) :
    ¬ is_leaf_type type ∧ type ≠ SND_CTL_TLVT_DB_RANGE := by
  constructor
  · intro hleaf
    simp only [is_leaf_type, Bool.or_eq_true, beq_iff_eq] at hleaf
    rcases hleaf with ((rfl | rfl) | rfl) | rfl <;> exact absurd h (by decide)
  · rintro rfl
    exact absurd h (by decide)

theorem leaf_type_cases (type : BitVec 32) (h : is_leaf_type type) :
    1 ≤ type.toInt ∧ type.toInt ≤ 5 := by
  by_contra hne
  exact (unknown_type type (by omega)).1 h

section Report

variable (tlv : Words) (pos : Nat) (rangemax : Int) (db : Option (Int × Int)) (fuel : Nat)
  (r : Int × Option (Int × Int))
  (hreport : RoundReport tlv pos rangemax db fuel r)

include hreport

theorem misleads_unknown (htype : (tlv.word (pos + 4)).toInt < 1 ∨ 5 < (tlv.word (pos + 4)).toInt) :
    Misleads tlv pos rangemax db r := by
  obtain ⟨hleaf, hrange⟩ := unknown_type _ htype
  rcases get_dB_range_leaf _ _ _ _ _ _ hrange hreport with ⟨hleaf', -⟩ | ⟨-, hr⟩
  · exact absurd hleaf' hleaf
  · exact Or.inl (by rw [hr])

theorem misleads_range (hrange : tlv.word (pos + 4) = SND_CTL_TLVT_DB_RANGE)
    (hentry : int_index (tlv.word (pos + 5)) < 6 ∨ (tlv.word (pos + 8)).toInt < 1 ∨ 5 < (tlv.word (pos + 8)).toInt) :
    Misleads tlv pos rangemax db r := by
  rcases get_dB_range_range _ _ _ _ _ _ hrange hreport with ⟨-, hr⟩ | ⟨-, hr⟩ | ⟨fuel', hloop, hlen⟩
  · exact Or.inl (by rw [hr])
  · exact Or.inl (by rw [hr])
  have hunknown := hentry.resolve_left (not_lt.mpr hlen)
  obtain ⟨hleaf, htype⟩ := unknown_type _ hunknown
  obtain ⟨err, sub, -, hsub, herr, -⟩ := range_dB_range_loop_ok _ _ _ _ _ _ _ (by omega) hloop
  rcases get_dB_range_leaf _ _ _ _ _ _ htype hsub with ⟨hleaf', -⟩ | ⟨-, hr⟩
  · exact absurd hleaf' hleaf
  · injection hr with hr
    exact Or.inl (by rw [herr (by rw [hr]; decide)])

/-- At a block with two words of data there is the header to look at, and the conversion of the first
gain where it is between the ends. -/
theorem misleads_leaf (hrange : tlv.word (pos + 4) ≠ SND_CTL_TLVT_DB_RANGE)
    (hlow : is_leaf_type (tlv.word (pos + 4)) → first_gain tlv < block_low (tlv.skip (pos + 4)) →
      (tlv.word pos).toInt ≠ entry_min tlv 1 ∨ second_gain tlv < block_low (tlv.skip (pos + 4)))
    (hconvert : block_low (tlv.skip (pos + 4)) ≤ first_gain tlv →
      first_gain tlv ≤ block_high (tlv.skip (pos + 4)) (tlv.word pos).toInt
        (min rangemax (tlv.word (pos + 1)).toInt) →
      ∀ top v, _tlv_from_dB_minmax (tlv.word pos).toInt (min rangemax (tlv.word (pos + 1)).toInt) (first_gain tlv) 1
          (block_min (tlv.skip (pos + 4))) top (mutes (tlv.skip (pos + 4))) = .ok v →
        (tlv.word (pos + 4) = SND_CTL_TLVT_DB_SCALE ∨
          (tlv.word (pos + 4) = SND_CTL_TLVT_DB_MINMAX ∨ tlv.word (pos + 4) = SND_CTL_TLVT_DB_MINMAX_MUTE) ∧
            top = block_max (tlv.skip (pos + 4))) → v ≠ entry_min tlv 1) :
    Misleads tlv pos rangemax db r := by
  rcases get_dB_range_leaf _ _ _ _ _ _ hrange hreport with ⟨hleaf, -, hr⟩ | ⟨-, hr⟩
  · refine Or.inr ⟨_, _, hr, hlow hleaf, ?_⟩
    intro hge hle fuel v hv
    obtain ⟨top, hv, htype⟩ := convert_from_dB_ok _ _ _ _ _ _ _ hrange hv
    exact hconvert hge hle top v hv htype
  · exact Or.inl (by rw [hr])

end Report

/-- A gain is between the ends of a block with a 1 behind its minimum only where the range is the right
way round. -/
theorem one_step_between (block : Words) (rangemin rangemax db_gain : Int) (hword : block.word 3 = 1#32)
    (hge : block_low block ≤ db_gain) (hle : db_gain ≤ block_high block rangemin rangemax) (hgain : 2 ≤ db_gain)
    (htype : block.word 0 = SND_CTL_TLVT_DB_SCALE ∨ block.word 0 = SND_CTL_TLVT_DB_MINMAX ∨
      block.word 0 = SND_CTL_TLVT_DB_MINMAX_MUTE) : rangemin ≤ rangemax := by
  rcases htype with hscale | hminmax
  · have hmutes : mutes block = false := by
      rw [mutes, if_pos hscale, block_mute, hword]
      decide
    have hone : block_step block = 1 := by
      rw [block_step, hword]
      rfl
    rw [block_low, hmutes, if_neg (by decide)] at hge
    rw [block_high, if_pos hscale, scale_top, hone] at hle
    omega
  · have hnot : block.word 0 ≠ SND_CTL_TLVT_DB_SCALE := by
      rcases hminmax with h | h <;>
        · rw [h]
          decide
    have hone : (1#32).toInt = 1 := by decide
    rw [block_high, if_neg hnot, block_max, hword, hone] at hle
    omega

/-- The volume of a block with gains from 1 to 8 on a range from 1. -/
theorem one_to_eight (rangemax db_gain v : Int) (have_mute : Bool) (hrange : 5 ≤ rangemax) (hgain : 3 ≤ db_gain)
    (hv : _tlv_from_dB_minmax 1 rangemax db_gain 1 1 8 have_mute = .ok v) : 3 ≤ v ∧ (7 ≤ db_gain → 5 ≤ v) := by
  rcases _tlv_from_dB_minmax_ok _ _ _ _ _ _ _ _ hv with ⟨hle, -⟩ | ⟨-, -, hv⟩ | ⟨-, -, hv⟩
  · omega
  · omega
  · have hproduct : 2 * 4 ≤ (db_gain - 1) * (rangemax - 1) := mul_le_mul (by omega) (by omega) (by norm_num) (by omega)
    rw [if_pos (by norm_num), Int.tdiv_eq_ediv_of_nonneg (by omega)] at hv
    refine ⟨by omega, fun hbig => ?_⟩
    have hproduct7 : 6 * 4 ≤ (db_gain - 1) * (rangemax - 1) :=
      mul_le_mul (by omega) (by omega) (by norm_num) (by omega)
    omega

section Rounds

variable {tlv : Words} {n : Nat} {rangemin rangemax : Int} (h : IsScaleRange tlv n rangemin rangemax)
  (hn : 1 < n) (hpos : 1 ≤ block_min (entry_block tlv 0)) (db : Option (Int × Int)) (fuel : Nat)
  (r : Int × Option (Int × Int))

include h

theorem round_at_step (k : Nat) (hk : k + 2 < n)
    (hreport : RoundReport tlv (2 + 6 * (k + 1) + 5) rangemax db fuel r) :
    Misleads tlv (2 + 6 * (k + 1) + 5) rangemax db r := by
  have htype : tlv.word (2 + 6 * (k + 1) + 5 + 4) = 8#32 := (h.scale (k + 2) hk).2
  refine misleads_unknown tlv _ rangemax db fuel r hreport (Or.inr ?_)
  rw [htype]
  decide

include hn hpos

/-- The first round goes by the range of the first entry and by words of the second. -/
theorem first_round (hreport : RoundReport tlv 2 rangemax db fuel r) : Misleads tlv 2 rangemax db r := by
  have hwide : (tlv.word 2).toInt < (tlv.word (2 + 1)).toInt := h.wide 0 (by omega)
  have hnext : entry_min tlv 1 = (tlv.word (2 + 1)).toInt + 1 := h.next 0 hn
  have hcap : min rangemax (tlv.word (2 + 1)).toInt = (tlv.word (2 + 1)).toInt :=
    min_eq_right (entry_max_le h 0 (by omega))
  by_cases hrange : tlv.word 6 = SND_CTL_TLVT_DB_RANGE
  · -- The words of the second entry are those of an entry of the block at word 6, too.
    have hwide1 := h.wide 1 hn
    have hstep := h.step 1 hn
    have htype := entry_type h 1 hn
    obtain ⟨hmute, -⟩ := first_gain_rises h hn hpos
    have hlow : block_low (entry_block tlv 1) = first_gain tlv := by
      rw [block_low, hmute]
      rfl
    rcases get_dB_range_range _ _ _ _ _ _ hrange hreport with ⟨-, hr⟩ | ⟨-, hr⟩ | ⟨fuel', hloop, hlen⟩
    · exact Or.inl (by rw [hr])
    · exact Or.inl (by rw [hr])
    rw [hcap] at hloop
    obtain ⟨err, sub, -, hsub, -, hr⟩ := range_dB_range_loop_ok _ _ _ _ _ _ _ (by omega) hloop
    have htop : (tlv.word (2 + 1)).toInt ≤ entry_max tlv 1 := by omega
    have hcap1 : min (tlv.word (2 + 1)).toInt (entry_max tlv 1) = entry_min tlv 1 - 1 := by
      rw [min_eq_left htop]
      omega
    change get_dB_range fuel' ((tlv.skip (2 + 4)).skip (2 + 2)) (entry_min tlv 1)
      (min (tlv.word (2 + 1)).toInt (entry_max tlv 1)) none = _ at hsub
    rw [Words.skip_skip, hcap1] at hsub
    rcases get_dB_range_leaf _ (entry_block tlv 1) _ _ _ _ (by rw [htype]; decide) hsub with
      ⟨-, -, hsub⟩ | ⟨hleaf, -⟩
    · obtain ⟨rfl, rfl⟩ := Prod.mk.inj hsub
      obtain ⟨merged, hmerged, hr | ⟨hlt, -⟩⟩ := hr le_rfl
      · cases hmerged rfl
        refine Or.inr ⟨_, _, hr, ?_, ?_⟩
        · intro hlt
          omega
        · intro _ hle
          rw [block_high, if_pos htype, scale_top, ← first_gain,
            show entry_min tlv 1 - 1 - entry_min tlv 1 = -1 by omega] at hle
          omega
      · exact absurd hlt (not_lt.mpr htop)
    · rw [htype] at hleaf
      exact absurd hleaf (by decide)
  · apply misleads_leaf tlv 2 rangemax db fuel r hreport hrange
    · intro _ _
      exact Or.inl (by omega)
    · intro _ _ top v hv _
      have hle := _tlv_from_dB_minmax_le _ _ _ _ _ _ _ _ (by omega) hv
      omega

/-- Six words a round on, the words of an entry and of the next one; by which of them the round takes
for the minimum of its range. -/
theorem round_at_min (k : Nat) (hk : k + 2 < n) (hbig : k = 0 → 23 ≤ first_gain tlv)
    (hreport : RoundReport tlv (2 + 6 * (k + 2)) rangemax db fuel r) :
    Misleads tlv (2 + 6 * (k + 2)) rangemax db r := by
  have hgain : first_gain tlv + 2 * (k + 1 : Nat) ≤ (tlv.word (2 + 6 * (k + 2) + 4)).toInt :=
    first_gain_add h hpos (k + 1) hk
  have hthree := three_le_first_gain h hn hpos
  exact misleads_unknown tlv _ rangemax db fuel r hreport (by omega)

theorem round_at_max (k : Nat) (hk : k + 2 < n)
    (hreport : RoundReport tlv (2 + 6 * (k + 1) + 1) rangemax db fuel r) :
    Misleads tlv (2 + 6 * (k + 1) + 1) rangemax db r := by
  have hsize : tlv.word (2 + 6 * (k + 1) + 1 + 8) = 8#32 := (h.scale (k + 2) hk).2
  have hmin : entry_min tlv 1 < (tlv.word (2 + 6 * (k + 1) + 1)).toInt := by
    have hwide : _ < (tlv.word (2 + 6 * (k + 1) + 1)).toInt := h.wide (k + 1) (by omega)
    have hle := second_min_add h k (by omega)
    omega
  have hthree := three_le_first_gain h hn hpos
  by_cases hrange : tlv.word (2 + 6 * (k + 1) + 1 + 4) = SND_CTL_TLVT_DB_RANGE
  · refine misleads_range tlv _ rangemax db fuel r hreport hrange (Or.inr (Or.inr ?_))
    rw [hsize]
    decide
  -- The type of the next entry stands where the step or the maximum is taken from.
  have hword : (tlv.skip (2 + 6 * (k + 1) + 1 + 4)).word 3 = 1#32 := (h.scale (k + 2) hk).1
  apply misleads_leaf tlv _ rangemax db fuel r hreport hrange
  · intro _ _
    exact Or.inl (by omega)
  intro hge hle top v hv hcases
  have hrange := one_step_between _ _ _ _ hword hge hle (by omega) (hcases.imp_right And.left)
  have hbounds := _tlv_from_dB_minmax_ge _ _ _ _ _ _ _ _ hv
  omega

theorem round_at_type (k : Nat) (hk : k + 2 < n) (hbig : k = 0 → 7 ≤ first_gain tlv)
    (hreport : RoundReport tlv (2 + 6 * (k + 1) + 2) rangemax db fuel r) :
    Misleads tlv (2 + 6 * (k + 1) + 2) rangemax db r := by
  have hsubmin : (tlv.word (2 + 6 * (k + 1) + 2)).toInt = 1 := by
    rw [(h.scale (k + 1) (by omega)).1]
    decide
  have hsubmax : (tlv.word (2 + 6 * (k + 1) + 2 + 1)).toInt = 8 := by
    rw [(h.scale (k + 1) (by omega)).2]
    decide
  have hgain : first_gain tlv + 2 * (k + 1 : Nat) ≤ (tlv.word (2 + 6 * (k + 1) + 2 + 8)).toInt :=
    first_gain_add h hpos (k + 1) hk
  have hthree := three_le_first_gain h hn hpos
  by_cases hrange : tlv.word (2 + 6 * (k + 1) + 2 + 4) = SND_CTL_TLVT_DB_RANGE
  · exact misleads_range tlv _ rangemax db fuel r hreport hrange (Or.inr (Or.inr (by omega)))
  -- The block has the minimum of the next entry for its type, and gains from 1 to 8.
  have hmin : entry_min tlv 1 + 2 * (k + 1 : Nat) ≤ (tlv.word (2 + 6 * (k + 1) + 2 + 4)).toInt :=
    second_min_add h (k + 1) hk
  have htop : (tlv.word (2 + 6 * (k + 1) + 2 + 4)).toInt < rangemax :=
    lt_of_lt_of_le (h.wide (k + 2) hk) (entry_max_le h (k + 2) hk)
  have hdbmin : block_min (tlv.skip (2 + 6 * (k + 1) + 2 + 4)) = 1 := by
    have hword : (tlv.skip (2 + 6 * (k + 1) + 2 + 4)).word 2 = 1#32 := (h.scale (k + 2) hk).1
    rw [block_min, hword]
    decide
  have hdbmax : block_max (tlv.skip (2 + 6 * (k + 1) + 2 + 4)) = 8 := by
    have hword : (tlv.skip (2 + 6 * (k + 1) + 2 + 4)).word 3 = 8#32 := (h.scale (k + 2) hk).2
    rw [block_max, hword]
    decide
  apply misleads_leaf tlv _ rangemax db fuel r hreport hrange
  · intro _ hlow
    rw [block_low, hdbmin] at hlow
    split_ifs at hlow
    · simp only [SND_CTL_TLV_DB_GAIN_MUTE] at hlow
      omega
    · omega
  intro _ _ top v hv hcases
  rw [hsubmin, hsubmax, hdbmin] at hv
  rcases hcases with hscale | ⟨hminmax, rfl⟩
  · have hone : (tlv.word (2 + 6 * (k + 1) + 2 + 4)).toInt = 1 := by
      rw [hscale]
      decide
    have hbounds := _tlv_from_dB_minmax_ge _ _ _ _ _ _ _ _ hv
    omega
  · have htype : 4 ≤ (tlv.word (2 + 6 * (k + 1) + 2 + 4)).toInt ∧ (tlv.word (2 + 6 * (k + 1) + 2 + 4)).toInt ≤ 5 := by
      rcases hminmax with h | h <;>
        · rw [h]
          decide
    rw [hdbmax] at hv
    have hvolume := one_to_eight _ _ _ _ (by omega) (by omega) hv
    omega

theorem round_at_size (k : Nat) (hk : k + 2 < n)
    (hreport : RoundReport tlv (2 + 6 * (k + 1) + 3) rangemax db fuel r) :
    Misleads tlv (2 + 6 * (k + 1) + 3) rangemax db r := by
  have hsubmin : (tlv.word (2 + 6 * (k + 1) + 3)).toInt = 8 := by
    rw [(h.scale (k + 1) (by omega)).2]
    decide
  have hsubmax : first_gain tlv + 2 * k ≤ (tlv.word (2 + 6 * (k + 1) + 3 + 1)).toInt :=
    first_gain_add h hpos k (by omega)
  have hthree := three_le_first_gain h hn hpos
  by_cases hrange : tlv.word (2 + 6 * (k + 1) + 3 + 4) = SND_CTL_TLVT_DB_RANGE
  · refine misleads_range tlv _ rangemax db fuel r hreport hrange (Or.inl ?_)
    have hword : tlv.word (2 + 6 * (k + 1) + 3 + 5) = 1#32 := (h.scale (k + 2) hk).1
    rw [hword]
    decide
  -- The maximum of the next entry is a type, so that the volumes of the second entry are small.
  have hmin : entry_min tlv 1 + 3 ≤ (tlv.word (2 + 6 * (k + 1) + 3 + 4)).toInt := by
    have hwide : _ < (tlv.word (2 + 6 * (k + 1) + 3 + 4)).toInt := h.wide (k + 2) hk
    have hle : _ ≤ entry_min tlv (k + 2) := second_min_add h (k + 1) hk
    omega
  have htop : (tlv.word (2 + 6 * (k + 1) + 3 + 4)).toInt ≤ rangemax := entry_max_le h (k + 2) hk
  apply misleads_leaf tlv _ rangemax db fuel r hreport hrange
  · intro hleaf _
    have htype := leaf_type_cases _ hleaf
    exact Or.inl (by omega)
  · intro _ _ top v hv hcases
    have htype : (tlv.word (2 + 6 * (k + 1) + 3 + 4)).toInt ≤ 5 := by
      rcases hcases with h | ⟨h | h, -⟩ <;>
        · rw [h]
          decide
    have hbounds := _tlv_from_dB_minmax_ge _ _ _ _ _ _ _ _ hv
    omega

theorem round_at_gain (k : Nat) (hk : k + 2 < n)
    (hreport : RoundReport tlv (2 + 6 * (k + 1) + 4) rangemax db fuel r) :
    Misleads tlv (2 + 6 * (k + 1) + 4) rangemax db r := by
  -- The block is the one of the next entry.
  have htype : tlv.word (2 + 6 * (k + 1) + 4 + 4) = SND_CTL_TLVT_DB_SCALE := (h.scale (k + 2) hk).1
  have hbelow := second_gain_below h hpos k hk
  have hstep := h.step 1 hn
  have hlow : block_low (entry_block tlv (k + 2)) = block_min (entry_block tlv (k + 2)) := by
    obtain ⟨hmute, -⟩ := entry_rises h (k + 1) hk (entry_gain_pos h hpos (k + 1) (by omega))
    rw [block_low, hmute]
    rfl
  apply misleads_leaf tlv _ rangemax db fuel r hreport (by rw [htype]; decide)
  · intro _ _
    refine Or.inr ?_
    change second_gain tlv < block_low (entry_block tlv (k + 2))
    omega
  · intro hge
    change block_low (entry_block tlv (k + 2)) ≤ first_gain tlv at hge
    rw [second_gain] at hbelow
    omega

/-- Every round behind the first one. -/
theorem later_round (pos : Nat) (hround : 9 ≤ pos) (hfits : pos + 4 ≤ 6 * n)
    (hnear : pos < 15 → 4 * ((pos : Int) - 8) - 1 ≤ first_gain tlv)
    (hreport : RoundReport tlv pos rangemax db fuel r) : Misleads tlv pos rangemax db r := by
  obtain ⟨k, j, hj, rfl⟩ : ∃ k j, j < 6 ∧ pos = 2 + 6 * (k + 1) + j :=
    ⟨(pos - 8) / 6, (pos - 8) % 6, Nat.mod_lt _ (by norm_num), by omega⟩
  match j with
  | 0 =>
    obtain ⟨k, rfl⟩ : ∃ k', k = k' + 1 := ⟨k - 1, by omega⟩
    exact round_at_min h hn hpos db fuel r k (by omega) (by omega) hreport
  | 1 => exact round_at_max h hn hpos db fuel r k (by omega) hreport
  | 2 => exact round_at_type h hn hpos db fuel r k (by omega) (by omega) hreport
  | 3 => exact round_at_size h hn hpos db fuel r k (by omega) hreport
  | 4 => exact round_at_gain h hn hpos db fuel r k (by omega) hreport
  | 5 => exact round_at_step h db fuel r k (by omega) hreport

end Rounds

/-! ## The two gains together -/

/-- What a report left so far is below the first gain. -/
def Below (tlv : Words) (db : Option (Int × Int)) : Prop :=
  ∀ d ∈ db, d.1 ≤ first_gain tlv ∧ d.2 < first_gain tlv

/-- The two gains come to the volumes they came from. -/
def BothReturn (tlv : Words) (rangemax : Int) (fuel len pos : Nat) (prev_submax : Int) (db : Option (Int × Int)) :
    Prop :=
  from_dB_range_loop fuel tlv len pos prev_submax db rangemax (first_gain tlv) 1 = .ok (0, some (entry_min tlv 1)) ∧
    from_dB_range_loop fuel tlv len pos prev_submax db rangemax (second_gain tlv) 1 =
      .ok (0, some (entry_min tlv 1 + 1))

theorem both_go_on (tlv : Words) (rangemax : Int) (fuel len pos : Nat) (prev_submax : Int) (db : Option (Int × Int))
    (hgains : first_gain tlv < second_gain tlv) (hpos : pos + 4 ≤ len) (hbelow : Below tlv db)
    (hmisleads : ∀ r, RoundReport tlv pos rangemax db fuel r → Misleads tlv pos rangemax db r)
    (hboth : BothReturn tlv rangemax (fuel + 1) len pos prev_submax db) :
    ∃ db', Below tlv db' ∧ BothReturn tlv rangemax fuel len (pos + 6 + int_index (tlv.word (pos + 5)))
      (min rangemax (tlv.word (pos + 1)).toInt) db' := by
  obtain ⟨hfirst, hsecond⟩ := hboth
  obtain ⟨err, dbmin, dbmax, hreport, hfirst⟩ := from_dB_range_loop_ok _ _ _ _ _ _ _ _ _ _ hpos hfirst
  obtain ⟨err', dbmin', dbmax', hreport', hsecond⟩ := from_dB_range_loop_ok _ _ _ _ _ _ _ _ _ _ hpos hsecond
  rw [hreport] at hreport'
  cases hreport'
  simp only [gt_iff_lt, zero_lt_one, true_or, if_true] at hfirst hsecond
  have hpassed : dbmin ≤ first_gain tlv ∧ (err = 0 → dbmax < first_gain tlv) ∧ dbmax < first_gain tlv := by
    rcases hmisleads _ hreport with hstale | ⟨_, _, heq, hlow, hconvert⟩
    · obtain ⟨hmin, hmax⟩ := hbelow (dbmin, dbmax) (by rw [← hstale]; rfl)
      exact ⟨hmin, fun _ => hmax, hmax⟩
    · cases heq
      rcases hfirst with ⟨-, hge, hle, hv⟩ | ⟨hlt, hv⟩ | ⟨hge, hgt, -⟩
      · exact absurd rfl (hconvert hge hle _ _ hv)
      · have hsecond_low := (hlow hlt).resolve_left (by omega)
        omega
      · exact ⟨hge, hgt, hgt rfl⟩
  obtain ⟨hge, herr, hgt⟩ := hpassed
  rcases hfirst with ⟨-, -, hle, -⟩ | ⟨hlt, -⟩ | ⟨-, -, hfirst⟩
  · omega
  · omega
  rcases hsecond with ⟨-, -, hle, -⟩ | ⟨hlt, -⟩ | ⟨-, -, hsecond⟩
  · omega
  · omega
  rcases hfirst with ⟨htop, hv⟩ | ⟨htop, hfirst⟩
  · rcases hsecond with ⟨-, hv'⟩ | ⟨htop', -⟩
    · omega
    · exact absurd htop htop'
  · rcases hsecond with ⟨htop', -⟩ | ⟨-, hsecond⟩
    · exact absurd htop' htop
    · exact ⟨some (dbmin, dbmax), fun d hd => by cases hd; exact ⟨hge, hgt⟩, hfirst, hsecond⟩

section Run

variable {tlv : Words} {n : Nat} {rangemin rangemax : Int} (h : IsScaleRange tlv n rangemin rangemax)
  (hn : 1 < n) (hpos : 1 ≤ block_min (entry_block tlv 0))

include h hn

theorem gains_apart : first_gain tlv < second_gain tlv := by
  have hstep := h.step 1 hn
  rw [second_gain]
  omega

include hpos

/-- From any later round on the two gains do not both come back. -/
theorem later_rounds_fail (fuel pos : Nat) (prev_submax : Int) (db : Option (Int × Int)) (hround : 9 ≤ pos)
    (hnear : pos < 15 → 4 * ((pos : Int) - 8) - 1 ≤ first_gain tlv) (hbelow : Below tlv db) :
    ¬ BothReturn tlv rangemax fuel (6 * n) pos prev_submax db := by
  induction fuel generalizing pos prev_submax db with
  | zero =>
    rintro ⟨hfirst, -⟩
    cases hfirst
  | succ fuel ih =>
    intro hboth
    by_cases hfits : pos + 4 ≤ 6 * n
    · obtain ⟨db', hbelow', hboth'⟩ := both_go_on tlv rangemax fuel _ _ _ _ (gains_apart h hn) hfits hbelow
        (fun r => later_round h hn hpos db fuel r pos hround hfits hnear) hboth
      exact ih _ _ _ (by omega) (by omega) hbelow' hboth'
    · obtain ⟨hfirst, hsecond⟩ := hboth
      rw [from_dB_range_loop, if_neg hfits] at hfirst hsecond
      have hboth' := hfirst.symm.trans hsecond
      injection hboth' with hboth'
      injection hboth' with _ hboth'
      injection hboth' with hboth'
      omega

theorem first_round_fails (fuel : Nat) : ¬ BothReturn tlv rangemax fuel (6 * n) 2 0 none := by
  cases fuel with
  | zero =>
    rintro ⟨hfirst, -⟩
    cases hfirst
  | succ fuel =>
    intro hboth
    obtain ⟨db', hbelow', hboth'⟩ := both_go_on tlv rangemax fuel _ _ _ _ (gains_apart h hn) (by omega)
      (fun d hd => by cases hd) (fun r => first_round h hn hpos none fuel r) hboth
    have hstep := h.step 0 (by omega)
    have habove := first_gain_above h hn hpos
    -- The next round is as far away as the step of the first entry says.
    have hmod : block_step (entry_block tlv 0) = ((tlv.word (2 + 5)).toNat % 65536 : Nat) := by
      change (((tlv.word (2 + 5)) &&& 0xffff#32).toNat : Int) = _
      rw [BitVec.toNat_and]
      exact congrArg Int.ofNat (Nat.and_two_pow_sub_one_eq_mod _ 16)
    have hindex : int_index (tlv.word (2 + 5)) = ((tlv.word (2 + 5)).toNat + 3) / 4 := rfl
    exact later_rounds_fail h hn hpos fuel _ _ db' (by omega) (by omega) hbelow' hboth'

end Run

/-! ## No block comes back -/

theorem range_from_dB (tlv : Words) (n : Nat) (rangemin rangemax db_gain xdir : Int)
    (h : IsScaleRange tlv n rangemin rangemax) : snd_tlv_convert_from_dB tlv rangemin rangemax db_gain xdir =
      from_dB_range_loop (tlv.size + 1) tlv (6 * n) 2 0 none rangemax db_gain xdir := by
  have hsize := h.size
  have hlimit := h.limit
  have hentries := h.entries
  rw [snd_tlv_convert_from_dB, convert_from_dB, tlv.read_ok 0 (by omega), h.type, tlv.read_ok 1 (by omega)]
  simp only [ok_bind, h.length]
  rw [if_pos trivial, if_neg (by omega)]

/-- The first round reads behind the block, or has nothing to compare the gain with. -/
theorem first_report_fails (tlv : Words) (n : Nat) (rangemin rangemax db_gain xdir v : Int)
    (h : IsScaleRange tlv n rangemin rangemax)
    (hcase : n = 1 ∨ block_min (entry_block tlv 0) < 1 ∨ 5 < block_min (entry_block tlv 0)) :
    snd_tlv_convert_from_dB tlv rangemin rangemax db_gain xdir ≠ .ok (0, some v) := by
  have hsize := h.size
  have hentries := h.entries
  rw [range_from_dB tlv n rangemin rangemax db_gain xdir h]
  intro hv
  obtain ⟨err, dbmin, dbmax, hreport, -⟩ := from_dB_range_loop_ok _ _ _ _ _ _ _ _ _ _ (by omega) hv
  have hskip : (tlv.skip (2 + 4)).size = 6 * n - 4 := by
    change tlv.size - (2 + 4) = _
    omega
  by_cases hrange : tlv.word 6 = SND_CTL_TLVT_DB_RANGE
  · have htype : block_min (entry_block tlv 0) = 3 := by
      change (tlv.word 6).toInt = 3
      rw [hrange]
      decide
    rcases get_dB_range_range _ _ _ _ _ _ hrange hreport with ⟨-, hr⟩ | ⟨-, hr⟩ | ⟨fuel, hloop, hlen⟩
    · cases hr
    · cases hr
    · obtain ⟨-, -, hread, -⟩ := range_dB_range_loop_ok _ _ _ _ _ _ _ (by omega) hloop
      omega
  · rcases get_dB_range_leaf _ _ _ _ _ _ hrange hreport with ⟨hleaf, hwords, -⟩ | ⟨-, hr⟩
    · have htype := leaf_type_cases _ hleaf
      have hmin : block_min (entry_block tlv 0) = ((tlv.skip (2 + 4)).word 0).toInt := rfl
      omega
    · cases hr

theorem range_never_round_trips (tlv : Words) (n : Nat) (rangemin rangemax : Int)
    (h : IsScaleRange tlv n rangemin rangemax) :
    (¬ ∀ volume ∈ Set.Icc rangemin rangemax, ∀ xdir, RangeRoundTrips tlv rangemin rangemax volume xdir) ∧
      (n = 1 ∨ block_min (entry_block tlv 0) < 1 ∨ 5 < block_min (entry_block tlv 0) →
        ∀ volume xdir, ¬ RangeRoundTrips tlv rangemin rangemax volume xdir) := by
  have hfails : n = 1 ∨ block_min (entry_block tlv 0) < 1 ∨ 5 < block_min (entry_block tlv 0) →
      ∀ volume xdir, ¬ RangeRoundTrips tlv rangemin rangemax volume xdir := by
    rintro hcase volume xdir ⟨gain, v, -, hfrom, -⟩
    exact first_report_fails tlv n rangemin rangemax gain xdir v h hcase hfrom
  refine ⟨?_, hfails⟩
  intro hall
  have hentries := h.entries
  have hrange : rangemin ∈ Set.Icc rangemin rangemax := by
    have hmax := entry_max_le h 0 hentries
    have hwide := h.wide 0 hentries
    have hbottom := h.bottom
    exact ⟨le_rfl, by omega⟩
  by_cases hcase : n = 1 ∨ block_min (entry_block tlv 0) < 1 ∨ 5 < block_min (entry_block tlv 0)
  · exact hfails hcase rangemin 1 (hall rangemin hrange 1)
  have hn : 1 < n := by omega
  have hpos : 1 ≤ block_min (entry_block tlv 0) := by omega
  have hcomes : ∀ d ∈ Set.Icc (0 : Int) 1, from_dB_range_loop (tlv.size + 1) tlv (6 * n) 2 0 none rangemax
      (first_gain tlv + d * block_step (entry_block tlv 1)) 1 = .ok (0, some (entry_min tlv 1 + d)) := by
    intro d hd
    have hmem : entry_min tlv 1 + d ∈ Set.Icc rangemin rangemax := by
      have hnext : entry_min tlv 1 = entry_max tlv 0 + 1 := h.next 0 hn
      have hwide0 := h.wide 0 hentries
      have hwide := h.wide 1 hn
      have hmax := entry_max_le h 1 hn
      have hbottom := h.bottom
      obtain ⟨hd0, hd1⟩ := hd
      exact ⟨by omega, by omega⟩
    obtain ⟨gain, v, hto, hfrom, hback⟩ := hall _ hmem 1
    rw [gain_of_second h hn hpos d gain hd hto] at hfrom hback
    rw [range_from_dB tlv n _ _ _ _ h] at hfrom
    rw [hfrom, gain_injective h hn hpos v d hd hback]
  apply first_round_fails h hn hpos (tlv.size + 1)
  constructor
  · have hfirst := hcomes 0 ⟨le_rfl, by norm_num⟩
    rwa [zero_mul, add_zero, add_zero] at hfirst
  · have hsecond := hcomes 1 ⟨by norm_num, le_rfl⟩
    rwa [one_mul] at hsecond

/-- Two entries of 11 and 10 volumes, 1 dB apart. -/
def two_entries : Words :=
  Words.ofList [SND_CTL_TLVT_DB_RANGE, 48#32, 0#32, 10#32, SND_CTL_TLVT_DB_SCALE, 8#32, BitVec.ofInt 32 (-1000),
    100#32, 11#32, 20#32, SND_CTL_TLVT_DB_SCALE, 8#32, 1000#32, 100#32]

theorem two_entries_scale : IsScaleRange two_entries 2 0 20 where
  type := by decide
  size := by decide
  length := by decide
  limit := by decide
  entries := by decide
  scale := by decide
  step := by decide
  wide := by decide
  next k hk := by
    obtain rfl : k = 0 := by omega
    decide
  rising k hk := by
    obtain rfl : k = 0 := by omega
    decide
  bottom := by decide
  top := by decide

theorem two_entries_fail :
    (¬ ∀ volume ∈ Set.Icc (0 : Int) 20, ∀ xdir, RangeRoundTrips two_entries 0 20 volume xdir) ∧
      ∀ volume xdir, ¬ RangeRoundTrips two_entries 0 20 volume xdir := by
  obtain ⟨hall, hnone⟩ := range_never_round_trips two_entries 2 0 20 two_entries_scale
  exact ⟨hall, hnone (by decide)⟩

/-- The gain of volume 5 is -5 dB; on the way back the first comparison is with nothing. -/
theorem scale_ranges_do_not_round_trip : ¬ ∀ tlv n rangemin rangemax, IsScaleRange tlv n rangemin rangemax →
    ∀ volume ∈ Set.Icc rangemin rangemax, ∀ xdir, RangeRoundTrips tlv rangemin rangemax volume xdir := by
  intro hall
  obtain ⟨gain, v, hto, hfrom, -⟩ := hall two_entries 2 0 20 two_entries_scale 5 ⟨by norm_num, by norm_num⟩ 0
  have hgain : snd_tlv_convert_to_dB two_entries 0 20 5 = .ok (0, some (-500)) := by rfl
  rw [hgain] at hto
  cases hto
  have hback : snd_tlv_convert_from_dB two_entries 0 20 (-500) 0 = .error .uninitialized := by rfl
  rw [hback] at hfrom
  cases hfrom

end Salsa.Tlv
