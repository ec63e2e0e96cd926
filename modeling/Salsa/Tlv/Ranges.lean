import Salsa.Tlv.Gains

/-!
# DB_RANGE

The entries of a DB_RANGE block are walked by hand-advanced positions. Where they tile a range of
volumes, the conversion finds the entry of a volume, and the report puts the entries together.
-/

namespace Salsa.Tlv

open CInt

/-- Entries from word `pos` to `stop`, whose blocks cover the volumes from `lo` to `hi`. -/
inductive Tiles (P : Words → Int → Int → Prop) (tlv : Words) (stop : Nat) : Nat → Int → Int → Prop
  | last (pos : Nat) (hblock : P (tlv.skip (pos + 2)) (tlv.word pos).toInt (tlv.word (pos + 1)).toInt)
      (hsize : 2 ≤ int_index (tlv.word (pos + 3))) (hstop : pos + 4 + int_index (tlv.word (pos + 3)) = stop) :
      Tiles P tlv stop pos (tlv.word pos).toInt (tlv.word (pos + 1)).toInt
  | cons (pos : Nat) (hi : Int) (hblock : P (tlv.skip (pos + 2)) (tlv.word pos).toInt (tlv.word (pos + 1)).toInt)
      (hsize : 2 ≤ int_index (tlv.word (pos + 3)))
      (hrest : Tiles P tlv stop (pos + 4 + int_index (tlv.word (pos + 3))) ((tlv.word (pos + 1)).toInt + 1) hi) :
      Tiles P tlv stop pos (tlv.word pos).toInt hi

section Tiles

variable {P : Words → Int → Int → Prop} {tlv : Words} {stop : Nat}

theorem Tiles.lt_stop {pos : Nat} {lo hi : Int} (h : Tiles P tlv stop pos lo hi) : pos + 6 ≤ stop := by
  induction h with
  | last pos _ hsize hstop => omega
  | cons pos _ _ hsize _ ih => omega

theorem Tiles.le (hP : ∀ sub lo hi, P sub lo hi → lo < hi) {pos : Nat} {lo hi : Int}
    (h : Tiles P tlv stop pos lo hi) : lo < hi := by
  induction h with
  | last pos hblock _ _ => exact hP _ _ _ hblock
  | cons pos hi hblock _ _ ih =>
    have := hP _ _ _ hblock
    omega

end Tiles

/-- A block behind word `pos` can be read with the words of its entry. -/
theorem entry_reads (tlv : Words) (pos : Nat) (h : 4 ≤ (tlv.skip (pos + 2)).size) :
    tlv.read pos = .ok (tlv.word pos) ∧ tlv.read (pos + 1) = .ok (tlv.word (pos + 1)) ∧
      tlv.read (pos + 3) = .ok (tlv.word (pos + 3)) := by
  have hsize : 4 ≤ tlv.size - (pos + 2) := h
  exact ⟨tlv.read_ok _ (by omega), tlv.read_ok _ (by omega), tlv.read_ok _ (by omega)⟩

/-! ## The rounds of the loops -/

/-- What a round of the report makes of the entries before, `out`. -/
def merge_ranges (pos : Nat) (out : Option (Int × Int)) (sub : Int × Int) : Int × Int :=
  match out with
  | some (min, max) =>
    if pos > 2 then (if sub.1 < min then sub.1 else min, if sub.2 > max then sub.2 else max) else sub
  | none => sub

section Rounds

variable (fuel : Nat) (tlv : Words) (len pos : Nat) (h : 4 ≤ (tlv.skip (pos + 2)).size) (hpos : pos + 4 ≤ len)

include h hpos

/-- The round that comes to the entry of the volume. -/
theorem to_dB_range_loop_found (volume : Int)
    (hvolume : volume ∈ Set.Icc (tlv.word pos).toInt (tlv.word (pos + 1)).toInt) :
    to_dB_range_loop (fuel + 1) tlv len pos volume =
      convert_to_dB fuel (tlv.skip (pos + 2)) (tlv.word pos).toInt (tlv.word (pos + 1)).toInt volume := by
  obtain ⟨hread, hread1, -⟩ := entry_reads tlv pos h
  rw [to_dB_range_loop, if_pos hpos, hread, hread1]
  simp only [ok_bind]
  rw [if_pos ⟨hvolume.1, hvolume.2⟩]

/-- The round that passes an entry. -/
theorem to_dB_range_loop_next (volume : Int)
    (hvolume : volume ∉ Set.Icc (tlv.word pos).toInt (tlv.word (pos + 1)).toInt) :
    to_dB_range_loop (fuel + 1) tlv len pos volume =
      to_dB_range_loop fuel tlv len (pos + 4 + int_index (tlv.word (pos + 3))) volume := by
  obtain ⟨hread, hread1, hread3⟩ := entry_reads tlv pos h
  rw [to_dB_range_loop, if_pos hpos, hread, hread1]
  simp only [ok_bind]
  rw [if_neg fun hin => hvolume ⟨hin.1, hin.2⟩, hread3, ok_bind]
  congr 1
  omega

theorem range_dB_range_loop_round (rangemax : Int) (out : Option (Int × Int)) (sub : Int × Int)
    (hmax : (tlv.word (pos + 1)).toInt ≤ rangemax) (hout : pos > 2 → out ≠ none)
    (hsub : get_dB_range fuel (tlv.skip (pos + 2)) (tlv.word pos).toInt (tlv.word (pos + 1)).toInt none =
      .ok (0, some sub)) :
    range_dB_range_loop (fuel + 1) tlv len pos rangemax out =
      if rangemax = (tlv.word (pos + 1)).toInt then .ok (0, some (merge_ranges pos out sub))
      else range_dB_range_loop fuel tlv len (pos + 4 + int_index (tlv.word (pos + 3))) rangemax
        (some (merge_ranges pos out sub)) := by
  obtain ⟨hread, hread1, hread3⟩ := entry_reads tlv pos h
  have hnext : pos + 3 + int_index (tlv.word (pos + 3)) + 1 = pos + 4 + int_index (tlv.word (pos + 3)) := by
    omega
  rw [range_dB_range_loop, if_pos hpos, hread, hread1]
  simp only [ok_bind]
  rw [if_neg (by omega), hsub]
  simp only [ok_bind, hread3, hnext]
  rw [if_neg (by decide)]
  unfold merge_ranges
  by_cases hfirst : pos > 2
  · rw [if_pos (by omega)]
    cases out with
    | none => exact absurd rfl (hout hfirst)
    | some out =>
      simp only [hfirst, if_true]
      rfl
  · rw [if_neg (by omega)]
    cases out with
    | none => rfl
    | some out =>
      simp only [hfirst, if_false]
      rfl

end Rounds

/-! ## The report -/

theorem fitsLong_of_int (tlv : Words) (rangemin rangemax : Int) (h : IsGainBlock tlv rangemin rangemax)
    (hmin : IsInt rangemin) (hmax : IsInt rangemax) : FitsLong tlv rangemin rangemax := by
  obtain ⟨hspan, hproduct, hsum⟩ := scale_fits tlv rangemin rangemax hmin hmax
  refine ⟨hspan, fun _ => hproduct, fun _ => hsum, fun htype => ?_⟩
  obtain ⟨hmin0, hmin1⟩ := hmin
  obtain ⟨hmax0, hmax1⟩ := hmax
  obtain ⟨hle, htop⟩ := h.max htype
  have hrange := h.range
  have hmute := h.min
  simp only [SND_CTL_TLV_DB_GAIN_MUTE] at hmute
  have hshare0 : 0 ≤ (block_max tlv - block_min tlv) * (rangemax - rangemin - 1) :=
    mul_nonneg (by omega) (by omega)
  have hshare1 : (block_max tlv - block_min tlv) * (rangemax - rangemin - 1) ≤ 19999998 * 4294967295 :=
    mul_le_mul (by omega) (by omega) (by omega) (by norm_num)
  exact ⟨by omega, by omega⟩

theorem merge_merge (pos next : Nat) (out : Option (Int × Int)) (a b : Int × Int) (hnext : next > 2) :
    merge_ranges next (some (merge_ranges pos out a)) b = merge_ranges pos out (min a.1 b.1, max a.2 b.2) := by
  unfold merge_ranges
  cases out with
  | none => grind
  | some out => grind

theorem image_glue (f g : Int → Int) (lo mid hi : Int) (hlo : lo ≤ mid + 1) (hhi : mid ≤ hi) :
    (fun v => if v ≤ mid then f v else g v) '' Set.Icc lo hi =
      f '' Set.Icc lo mid ∪ g '' Set.Icc (mid + 1) hi := by
  ext x
  constructor
  · rintro ⟨v, ⟨hv0, hv1⟩, rfl⟩
    dsimp only
    split_ifs with h
    · exact Or.inl ⟨v, ⟨hv0, h⟩, rfl⟩
    · exact Or.inr ⟨v, ⟨by omega, hv1⟩, rfl⟩
  · rintro (⟨v, ⟨hv0, hv1⟩, rfl⟩ | ⟨v, ⟨hv0, hv1⟩, rfl⟩)
    · exact ⟨v, ⟨hv0, by omega⟩, if_pos hv1⟩
    · exact ⟨v, ⟨by omega, hv1⟩, if_neg (by omega)⟩

/-- The entries from `pos` on convert every volume of theirs, and their report is the extremes of
the gains, merged with those of the entries before. -/
theorem tiles_report {tlv : Words} {len pos : Nat} {lo hi : Int} (h : Tiles IsGainBlock tlv (len + 2) pos lo hi) :
    ∃ gain low high,
      (∀ fuel v, len + 4 ≤ fuel + pos → v ∈ Set.Icc lo hi →
        to_dB_range_loop fuel tlv len pos v = .ok (0, some (gain v))) ∧
      IsLeast (gain '' Set.Icc lo hi) low ∧ IsGreatest (gain '' Set.Icc lo hi) high ∧
      ∀ fuel out, len + 4 ≤ fuel + pos → (pos > 2 → out ≠ none) →
        range_dB_range_loop fuel tlv len pos hi out = .ok (0, some (merge_ranges pos out (low, high))) := by
  induction h with
  | last pos hblock hsize hstop =>
    have hwords := hblock.size
    have hfits := fitsLong_of_int _ _ _ hblock (toInt_isInt _) (toInt_isInt _)
    obtain ⟨hleast, hgreatest⟩ := block_gain_extremes _ _ _ hblock
    refine ⟨_, _, _, fun fuel v hfuel hv => ?_, hleast, hgreatest, fun fuel out hfuel hout => ?_⟩
    · obtain ⟨fuel, rfl⟩ : ∃ k, fuel = k + 2 := ⟨fuel - 2, by omega⟩
      rw [to_dB_range_loop_found _ _ _ _ hwords (by omega) v hv]
      exact block_to_dB _ _ _ hblock fuel v hfits hv
    · obtain ⟨fuel, rfl⟩ : ∃ k, fuel = k + 2 := ⟨fuel - 2, by omega⟩
      rw [range_dB_range_loop_round _ _ _ _ hwords (by omega) _ out _ le_rfl hout
        (block_dB_range fuel _ _ _ none hblock.block hfits), if_pos rfl]
  | cons pos hi hblock hsize hrest ih =>
    obtain ⟨gain, low, high, hto, hleast, hgreatest, hreport⟩ := ih
    have hwords := hblock.size
    have hstop := hrest.lt_stop
    have hlt := hblock.range
    have hlt' := hrest.le fun _ _ _ => IsGainBlock.range
    have hfits := fitsLong_of_int _ _ _ hblock (toInt_isInt _) (toInt_isInt _)
    obtain ⟨hleast1, hgreatest1⟩ := block_gain_extremes _ _ _ hblock
    have himage := image_glue (block_gain (tlv.skip (pos + 2)) (tlv.word pos).toInt (tlv.word (pos + 1)).toInt) gain
      (tlv.word pos).toInt (tlv.word (pos + 1)).toInt hi (by omega) (by omega)
    refine ⟨_, _, _, fun fuel v hfuel hv => ?_, himage ▸ hleast1.union hleast, himage ▸ hgreatest1.union hgreatest,
      fun fuel out hfuel hout => ?_⟩
    · obtain ⟨fuel, rfl⟩ : ∃ k, fuel = k + 2 := ⟨fuel - 2, by omega⟩
      split_ifs with hhere
      · rw [to_dB_range_loop_found _ _ _ _ hwords (by omega) v ⟨hv.1, hhere⟩]
        exact block_to_dB _ _ _ hblock fuel v hfits ⟨hv.1, hhere⟩
      · rw [to_dB_range_loop_next _ _ _ _ hwords (by omega) v fun hin => hhere hin.2]
        exact hto _ v (by omega) ⟨by omega, hv.2⟩
    · obtain ⟨fuel, rfl⟩ : ∃ k, fuel = k + 2 := ⟨fuel - 2, by omega⟩
      rw [range_dB_range_loop_round _ _ _ _ hwords (by omega) hi out _ (by omega) hout
        (block_dB_range fuel _ _ _ none hblock.block hfits), if_neg (by omega),
        hreport _ _ (by omega) (fun _ => by simp), merge_merge _ _ _ _ _ (by omega)]

/-- A block of entries that tile the range. -/
structure IsGainRange (tlv : Words) (rangemin rangemax : Int) : Prop where
  type : tlv.word 0 = SND_CTL_TLVT_DB_RANGE
  len : int_index (tlv.word 1) ≤ MAX_TLV_RANGE_SIZE
  size : int_index (tlv.word 1) + 2 ≤ tlv.size
  entries : Tiles IsGainBlock tlv (int_index (tlv.word 1) + 2) 2 rangemin rangemax

/-- All volumes of the range have a gain, and the report is the least and the greatest of them. -/
def ReportsRange (tlv : Words) (rangemin rangemax : Int) : Prop :=
  ∃ gain : Int → Int,
    (∀ v ∈ Set.Icc rangemin rangemax, snd_tlv_convert_to_dB tlv rangemin rangemax v = .ok (0, some (gain v))) ∧
    ∀ out, ∃ min max, snd_tlv_get_dB_range tlv rangemin rangemax out = .ok (0, some (min, max)) ∧
      IsLeast (gain '' Set.Icc rangemin rangemax) min ∧ IsGreatest (gain '' Set.Icc rangemin rangemax) max

theorem range_reports (tlv : Words) (rangemin rangemax : Int) (h : IsGainRange tlv rangemin rangemax) :
    ReportsRange tlv rangemin rangemax := by
  obtain ⟨gain, low, high, hto, hleast, hgreatest, hreport⟩ := tiles_report h.entries
  have hstop := h.entries.lt_stop
  have hsize := h.size
  refine ⟨gain, fun v hv => ?_, fun out => ⟨low, high, ?_, hleast, hgreatest⟩⟩
  · rw [snd_tlv_convert_to_dB, convert_to_dB, tlv.read_ok 0 (by omega), tlv.read_ok 1 (by omega), h.type]
    simp only [ok_bind, if_true]
    rw [if_neg (by have := h.len; omega)]
    exact hto _ v (by omega) hv
  · rw [snd_tlv_get_dB_range, get_dB_range, tlv.read_ok 0 (by omega), tlv.read_ok 1 (by omega), h.type]
    simp only [ok_bind, if_true]
    rw [if_neg (by have := h.len; omega), hreport _ out (by omega) (fun hpos => absurd hpos (by omega))]
    cases out <;> rfl

/-- A scale that converts its last volume computes nothing that does not fit. -/
theorem scale_fits_of_ok (tlv : Words) (rangemin rangemax : Int) (r : Int × Option Int) (hrange : rangemin < rangemax)
    (hblock : IsBlock tlv SND_CTL_TLVT_DB_SCALE)
    (h : tlv_to_dB_scale tlv rangemin rangemax rangemax = .ok r) : FitsLong tlv rangemin rangemax := by
  simp only [tlv_to_dB_scale, hblock.read_min, hblock.read_max, ok_bind] at h
  rw [if_neg (by omega)] at h
  obtain ⟨span, hspan, h⟩ := (bind_eq_ok _ _ _).mp h
  obtain ⟨product, hproduct, h⟩ := (bind_eq_ok _ _ _).mp h
  obtain ⟨sum, hsum, -⟩ := (bind_eq_ok _ _ _).mp h
  obtain rfl := long_eq_ok _ _ hspan
  obtain rfl := long_eq_ok _ _ hproduct
  have hcomm : block_step tlv * (rangemax - rangemin) =
      (rangemax - rangemin) * ((tlv.word 3 &&& 0xffff#32).toNat : Int) := mul_comm _ _
  refine ⟨isLong_of_ok _ _ hspan, fun _ => hcomm ▸ isLong_of_ok _ _ hproduct, fun _ => ?_,
    fun htype => absurd hblock.type htype⟩
  rw [scale_top, hcomm, add_comm]
  exact isLong_of_ok _ _ hsum

/-- So does a block of two ends that converts the volume below its last one. -/
theorem minmax_fits_of_ok (tlv : Words) (rangemin rangemax : Int) (r : Int × Option Int)
    (hrange : rangemin < rangemax) (hblock : IsMinmaxBlock tlv)
    (h : tlv_to_dB_minmax tlv rangemin rangemax (rangemax - 1) = .ok r) : FitsLong tlv rangemin rangemax := by
  have htype := minmax_type tlv hblock
  have hsize := minmax_size tlv hblock
  suffices hfits : IsLong (rangemax - rangemin) ∧
      IsLong ((block_max tlv - block_min tlv) * (rangemax - rangemin - 1)) from
    ⟨hfits.1, fun hscale => absurd hscale htype, fun hscale => absurd hscale htype, fun _ => hfits.2⟩
  by_cases hone : rangemax - rangemin = 1
  · rw [hone, sub_self, mul_zero]
    exact ⟨⟨by norm_num, by norm_num⟩, ⟨by norm_num, by norm_num⟩⟩
  rw [tlv_to_dB_minmax, tlv.read_ok 2 (by omega), tlv.read_ok 3 (by omega)] at h
  simp only [ok_bind] at h
  rw [if_neg (by omega), if_neg (by omega)] at h
  obtain ⟨width, hwidth, h⟩ := (bind_eq_ok _ _ _).mp h
  obtain ⟨dist, hdist, h⟩ := (bind_eq_ok _ _ _).mp h
  obtain ⟨product, hproduct, h⟩ := (bind_eq_ok _ _ _).mp h
  obtain ⟨span, hspan, -⟩ := (bind_eq_ok _ _ _).mp h
  obtain rfl := long_eq_ok _ _ hdist
  obtain rfl : width = block_max tlv - block_min tlv := int_eq_ok _ _ hwidth
  have hless : rangemax - 1 - rangemin = rangemax - rangemin - 1 := by omega
  exact ⟨isLong_of_ok _ _ hspan, hless ▸ isLong_of_ok _ _ hproduct⟩

theorem block_reports_iff (tlv : Words) (rangemin rangemax : Int) (h : IsGainBlock tlv rangemin rangemax) :
    ReportsRange tlv rangemin rangemax ↔ FitsLong tlv rangemin rangemax := by
  have hrange := h.range
  constructor
  · rintro ⟨gain, hto, -⟩
    rcases h.block with hblock | hblock
    · have htop := hto rangemax ⟨hrange.le, le_rfl⟩
      rw [snd_tlv_convert_to_dB, convert_to_dB_scale _ _ _ _ _ hblock] at htop
      exact scale_fits_of_ok tlv _ _ _ hrange hblock htop
    · have hbelow := hto (rangemax - 1) ⟨by omega, by omega⟩
      rw [snd_tlv_convert_to_dB, convert_to_dB_minmax _ _ _ _ _ hblock] at hbelow
      exact minmax_fits_of_ok tlv _ _ _ hrange hblock hbelow
  · intro hfits
    obtain ⟨hleast, hgreatest⟩ := block_gain_extremes tlv _ _ h
    exact ⟨_, fun v hv => block_to_dB tlv _ _ h _ v hfits hv,
      fun out => ⟨_, _, block_dB_range _ tlv _ _ out h.block hfits, hleast, hgreatest⟩⟩

/-- The report is exact for entries that tile a range, and for a block of its own as long as
nothing overflows a long. -/
theorem reports_range_iff (tlv : Words) (rangemin rangemax : Int)
    (h : IsGainBlock tlv rangemin rangemax ∨ IsGainRange tlv rangemin rangemax) :
    ReportsRange tlv rangemin rangemax ↔
      (tlv.word 0 ≠ SND_CTL_TLVT_DB_RANGE → FitsLong tlv rangemin rangemax) := by
  rcases h with h | h
  · have htype : tlv.word 0 ≠ SND_CTL_TLVT_DB_RANGE := by
      rcases h.block with hblock | hblock | hblock <;>
        · rw [hblock.type]
          decide
    rw [block_reports_iff tlv _ _ h]
    exact ⟨fun hfits _ => hfits, fun hfits => hfits htype⟩
  · exact ⟨fun _ htype => absurd h.type htype, fun _ => range_reports tlv _ _ h⟩

/-- The gains from the mute gain to its opposite. -/
def full_minmax : Words :=
  Words.ofList [SND_CTL_TLVT_DB_MINMAX, 8#32, BitVec.ofInt 32 (-9999999), 9999999#32]

theorem full_minmax_block (rangemin rangemax : Int) (h : rangemin < rangemax) :
    IsGainBlock full_minmax rangemin rangemax :=
  ⟨Or.inr (Or.inl ⟨by decide, by decide⟩), h, by decide, fun _ => ⟨by decide, by decide⟩⟩

/-- A scale from -10 dB on in steps of 1 dB, and on the volumes above the gains from 0 dB to 20 dB. -/
def scale_then_minmax : Words :=
  Words.ofList
    [SND_CTL_TLVT_DB_RANGE, 48#32, 0#32, 10#32, SND_CTL_TLVT_DB_SCALE, 8#32, BitVec.ofInt 32 (-1000), 100#32,
      11#32, 20#32, SND_CTL_TLVT_DB_MINMAX, 8#32, 0#32, 2000#32]

theorem scale_then_minmax_range : IsGainRange scale_then_minmax 0 20 where
  type := by decide
  len := by decide
  size := by decide
  entries := by
    have hscale : IsGainBlock (scale_then_minmax.skip 4) 0 10 :=
      ⟨Or.inl ⟨by decide, by decide⟩, by decide, by decide, fun htype => absurd (by decide) htype⟩
    have hminmax : IsGainBlock (scale_then_minmax.skip 10) 11 20 :=
      ⟨Or.inr (Or.inl ⟨by decide, by decide⟩), by decide, by decide, fun _ => ⟨by decide, by decide⟩⟩
    exact Tiles.cons 2 20 hscale (by decide) (Tiles.last 8 hminmax (by decide) (by decide))

theorem scale_then_minmax_reports : ReportsRange full_minmax 0 100 ∧ ReportsRange scale_then_minmax 0 20 := by
  refine ⟨(reports_range_iff full_minmax 0 100 (Or.inl (full_minmax_block 0 100 (by norm_num)))).mpr fun _ => ?_,
    (reports_range_iff scale_then_minmax 0 20 (Or.inr scale_then_minmax_range)).mpr fun htype => ?_⟩
  · exact fitsLong_of_int full_minmax 0 100 (full_minmax_block 0 100 (by norm_num)) ⟨by norm_num, by norm_num⟩
      ⟨by norm_num, by norm_num⟩
  · exact absurd scale_then_minmax_range.type htype

/-- The share of the volume overflows on a range of 2^62 volumes. -/
theorem full_minmax_overflows : ¬ ∀ tlv rangemin rangemax, IsLong rangemin → IsLong rangemax →
    (IsGainBlock tlv rangemin rangemax ∨ IsGainRange tlv rangemin rangemax) →
      ReportsRange tlv rangemin rangemax := by
  intro hall
  obtain ⟨gain, hto, -⟩ := hall full_minmax 0 4611686018427387904 ⟨by norm_num, by norm_num⟩
    ⟨by norm_num, by norm_num⟩ (Or.inl (full_minmax_block _ _ (by norm_num)))
  have hover : snd_tlv_convert_to_dB full_minmax 0 4611686018427387904 4611686018427387903 =
      .error .overflow := by rfl
  rw [hto 4611686018427387903 ⟨by norm_num, by norm_num⟩] at hover
  cases hover

end Salsa.Tlv
