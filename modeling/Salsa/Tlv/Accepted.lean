import Salsa.Tlv.Whole

/-!
# What the parser accepts

`init_db_info` copies the bytes of the block that the parser found, and the conversions run on the
copy. The parser does not check that the blocks in it are there with all their words.
-/

namespace Salsa.Tlv

open CInt
open Possible (Returns Stops Ended not_ended_diverge not_stops_overflow not_stops_divide of_ok_bind)

/-! ## The copy -/

/-- What the parser returns with a place is the size of a dB block there. -/
theorem parse_found (buf : Words) (fuel : Nat) :
    (∀ pos size ret start, parse_dB_info buf fuel pos size = .ok (ret, some start) →
        is_dB_type (buf.word start) = true ∧ ret = cut ((buf.word (start + 1)).toNat + 8)) ∧
      ∀ pos size ret start, parse_container buf fuel pos size = .ok (ret, some start) →
        is_dB_type (buf.word start) = true ∧ ret = cut ((buf.word (start + 1)).toNat + 8) := by
  induction fuel with
  | zero =>
    refine ⟨fun pos size ret start h => ?_, fun pos size ret start h => ?_⟩
    · rw [parse_dB_info] at h
      cases h
    · rw [parse_container] at h
      cases h
  | succ fuel ih =>
    obtain ⟨hinfo, hcontainer⟩ := ih
    constructor
    · intro pos size ret start h
      simp only [parse_dB_info, bind_eq_ok] at h
      obtain ⟨type, htype, bytes, hbytes, h⟩ := h
      obtain ⟨rfl, -⟩ := read_eq_ok _ _ _ htype
      obtain ⟨rfl, -⟩ := read_eq_ok _ _ _ hbytes
      split_ifs at h with hmisfit hcase hdB
      · cases h
      · exact hcontainer _ _ _ _ h
      · cases h
        exact ⟨hdB, rfl⟩
      · cases h
    · intro pos size ret start h
      rw [parse_container] at h
      split_ifs at h with hmore
      · simp only [bind_eq_ok] at h
        obtain ⟨⟨err, block⟩, hcall, h⟩ := h
        simp only at h
        split_ifs at h with hfound
        · cases h
          exact hinfo _ _ _ _ hcall
        · simp only [bind_eq_ok] at h
          obtain ⟨bytes, -, h⟩ := h
          exact hcontainer _ _ _ _ h
      · cases h

/-- The copy of `n` bytes from word `pos` on. -/
def db_copy (tlv : Words) (pos : Nat) (n : Int) : Words := ⟨n.toNat / 4, fun i => tlv.word (pos + i)⟩

/-- Every conversion of the block has a result, whatever C leaves open. -/
structure SafeToConvert (block : Words) : Prop where
  to_dB : ∀ rangemin rangemax volume, (Possible.of (snd_tlv_convert_to_dB block rangemin rangemax volume)).Returns
  range : ∀ rangemin rangemax out, (snd_tlv_get_dB_range_any block rangemin rangemax out).Returns
  from_dB : ∀ rangemin rangemax db_gain xdir, (snd_tlv_convert_from_dB_any block rangemin rangemax db_gain xdir).Returns

/-- The conversions as they are: where C defines all that they compute they have a result. -/
theorem SafeToConvert.defined {block : Words} (h : SafeToConvert block) :
    (∀ rangemin rangemax volume,
        Avoids (Stops fun _ => True) (snd_tlv_convert_to_dB block rangemin rangemax volume)) ∧
      (∀ rangemin rangemax out, Avoids (Stops fun _ => True) (snd_tlv_get_dB_range block rangemin rangemax out)) ∧
      ∀ rangemin rangemax db_gain xdir,
        Avoids (Stops fun _ => True) (snd_tlv_convert_from_dB block rangemin rangemax db_gain xdir) := by
  refine ⟨fun _ _ _ => (h.to_dB _ _ _).of_stops, fun rangemin rangemax out => ?_,
    fun rangemin rangemax db_gain xdir => ?_⟩
  · have hout : ∀ d ∈ out, d = out.getD (0, 0) := by
      rintro d rfl
      rfl
    exact ((get_dB_range_covered _).1 block rangemin rangemax out _ hout).avoids (h.range _ _ _)
  · exact ((convert_from_dB_covered _).1 block rangemin rangemax db_gain xdir).avoids (h.from_dB _ _ _ _)

theorem safe_of_avoids (block : Words)
    (hto : ∀ rangemin rangemax volume,
      Avoids (Stops Ended) (snd_tlv_convert_to_dB block rangemin rangemax volume))
    (hrange : ∀ rangemin rangemax out, (snd_tlv_get_dB_range_any block rangemin rangemax out).Avoids Ended)
    (hfrom : ∀ rangemin rangemax db_gain xdir,
      (snd_tlv_convert_from_dB_any block rangemin rangemax db_gain xdir).Avoids Ended) :
    SafeToConvert block := by
  refine ⟨fun _ _ _ => Possible.returns_of_avoids (Possible.avoids_of ?_) (Possible.avoids_of (hto _ _ _)),
    fun _ _ _ => Possible.returns_of_avoids ((get_dB_range_ends _).1 _ _ _ _ le_rfl) (hrange _ _ _),
    fun _ _ _ _ => Possible.returns_of_avoids ((from_dB_ends _).1 _ _ _ _ _ le_rfl) (hfrom _ _ _ _)⟩
  exact fun fault h => (to_dB_ends _).1 _ _ _ _ le_rfl fault h.1

/-- What the conversions come to in the block is there with its words. -/
structure Complete (block : Words) : Prop where
  to_dB : ∀ volume, WholeTo volume block
  report : ∀ rangemax, ∃ ok, WholeReport block rangemax ok
  from_dB : WholeFrom block

/-- A block that is not DB_RANGE is complete with the two words of its data. -/
theorem complete_single (block : Words) (hrange : block.word 0 ≠ SND_CTL_TLVT_DB_RANGE) (hsize : 0 < block.size)
    (hdata : is_leaf_type (block.word 0) → 4 ≤ block.size) : Complete block := by
  refine ⟨fun _ => .single block hrange hsize fun hleaf _ => hdata hleaf, fun rangemax => ?_,
    .single block hrange hsize fun hleaf _ => hdata hleaf⟩
  by_cases hleaf : is_leaf_type (block.word 0)
  · exact ⟨true, .leaf block rangemax hleaf (hdata hleaf)⟩
  · exact ⟨false, .unknown block rangemax hleaf hrange hsize⟩

theorem safe_of_complete (block : Words) (h : Complete block) : SafeToConvert block := by
  refine safe_of_avoids block (fun rangemin rangemax volume => ?_) (fun rangemin rangemax out => ?_)
    fun _ _ _ _ => (whole_from_dB not_ended_diverge _).1 _ _ _ _ _ h.from_dB
  · exact (whole_to_dB (fun h => not_ended_diverge h.1) (not_stops_overflow _) (not_stops_divide _) volume _).1 _ _ _
      (h.to_dB volume)
  · obtain ⟨ok, hok⟩ := h.report rangemax
    exact (whole_report not_ended_diverge _).1 _ _ _ ok _ hok

/-! ## What a safe block has -/

/-- Over a range of ints the report on a block that is there fits in a long. -/
theorem leaf_report (fuel : Nat) (tlv : Words) (rangemin rangemax : Int) (out : Option (Int × Int))
    (hleaf : is_leaf_type (tlv.word 0)) (hsize : 4 ≤ tlv.size) (hmin : IsInt rangemin) (hmax : IsInt rangemax) :
    get_dB_range (fuel + 1) tlv rangemin rangemax out =
      .ok (0, some (block_low tlv, block_high tlv rangemin rangemax)) := by
  by_cases hscale : tlv.word 0 = SND_CTL_TLVT_DB_SCALE
  · obtain ⟨hspan, hproduct, hsum⟩ := scale_fits tlv rangemin rangemax hmin hmax
    exact block_dB_range fuel tlv _ _ out (Or.inl ⟨hsize, hscale⟩)
      ⟨hspan, fun _ => hproduct, fun _ => hsum, fun htype => absurd hscale htype⟩
  · have hrange := not_range_of_leaf _ hleaf
    have hok : ∃ r, get_dB_range (fuel + 1) tlv rangemin rangemax out = .ok r := by
      rw [get_dB_range, tlv.read_ok 0 (by omega), tlv.read_ok 2 (by omega), tlv.read_ok 3 (by omega), ok_bind,
        if_neg hrange, if_neg hscale]
      split_ifs <;> exact ⟨_, rfl⟩
    obtain ⟨r, hr⟩ := hok
    rcases get_dB_range_leaf _ _ _ _ _ _ hrange hr with ⟨-, -, heq⟩ | ⟨hnot, -⟩
    · rw [hr, heq]
    · exact absurd hleaf hnot

/-- Above every report, and above every volume. -/
def ABOVE : Int := 1152921504606846976

theorem leaf_report_below (tlv : Words) (rangemin rangemax : Int) (hmin : IsInt rangemin) (hmax : IsInt rangemax) :
    block_low tlv < ABOVE ∧ block_high tlv rangemin rangemax < ABOVE := by
  have hup := (step_span_bounds tlv rangemin rangemax hmin hmax).2
  have hint1 := (block_min_isInt tlv).2
  have hint2 := (block_max_isInt tlv).2
  rw [block_low, block_high, scale_top, ABOVE, SND_CTL_TLV_DB_GAIN_MUTE]
  constructor <;> split_ifs <;> omega

/-- A report on a block with two words of data takes it from the memory. -/
theorem leaf_returns (fuel : Nat) (tlv : Words) (rangemin rangemax : Int) (out : Int × Int)
    (hleaf : is_leaf_type (tlv.word 0)) (hmin : IsInt rangemin) (hmax : IsInt rangemax)
    (h : (get_dB_range_any fuel tlv rangemin rangemax out).Returns) :
    4 ≤ tlv.size ∧
      get_dB_range_any fuel tlv rangemin rangemax out = pure (0, block_low tlv, block_high tlv rangemin rangemax) := by
  cases fuel with
  | zero => exact absurd h (Possible.not_returns_error not_leavesOpen_diverge)
  | succ fuel =>
    rw [get_dB_range_any_leaf _ _ _ _ _ hleaf] at h ⊢
    have hsize : 4 ≤ tlv.size := by
      by_contra hlt
      rw [leaf_report_reads _ _ _ _ _ hleaf (by omega)] at h
      exact Possible.not_returns_error not_leavesOpen_read h.head
    rw [leaf_report _ _ _ _ _ hleaf hsize hmin hmax, of_ok_bind]
    exact ⟨hsize, rfl⟩

theorem unknown_returns (fuel : Nat) (tlv : Words) (rangemin rangemax : Int) (out : Int × Int)
    (hleaf : ¬ is_leaf_type (tlv.word 0)) (hrange : tlv.word 0 ≠ SND_CTL_TLVT_DB_RANGE)
    (h : (get_dB_range_any fuel tlv rangemin rangemax out).Returns) :
    get_dB_range_any fuel tlv rangemin rangemax out = pure (-EINVAL, out) := by
  cases fuel with
  | zero => exact absurd h (Possible.not_returns_error not_leavesOpen_diverge)
  | succ fuel =>
    have hsize : 0 < tlv.size := by
      rw [get_dB_range_any] at h
      exact h.read.1
    exact get_dB_range_any_unknown fuel tlv _ _ _ hsize hleaf hrange

section Walks

variable {block : Words} {len : Nat}

theorem ABOVE_ne_capped (submax : BitVec 32) :
    (if ABOVE < submax.toInt then ABOVE else submax.toInt) = submax.toInt ∧ ABOVE ≠ submax.toInt := by
  have htop := (toInt_isInt submax).2
  rw [ABOVE]
  exact ⟨if_neg (by omega), by omega⟩

/-- A round for a gain above all others goes on. -/
theorem back_step (fuel pos : Nat) (prev_submax : Int) (db : Int × Int) (hpos : pos + 4 ≤ len)
    (hrange : block.word (pos + 4) ≠ SND_CTL_TLVT_DB_RANGE) (hbelow : db.1 < ABOVE ∧ db.2 < ABOVE)
    (h : (from_dB_range_loop_any (fuel + 1) block len pos prev_submax db ABOVE ABOVE 0).Returns) :
    pos + 6 ≤ block.size ∧ (is_leaf_type (block.word (pos + 4)) → pos + 8 ≤ block.size) ∧
      ∃ prev_submax' db', (db'.1 < ABOVE ∧ db'.2 < ABOVE) ∧
        (from_dB_range_loop_any fuel block len (pos + 6 + int_index (block.word (pos + 5))) prev_submax' db'
          ABOVE ABOVE 0).Returns := by
  rw [from_dB_range_loop_any, if_pos hpos] at h
  obtain ⟨-, h⟩ := h.read
  obtain ⟨-, h⟩ := h.read
  obtain ⟨hcap, hend⟩ := ABOVE_ne_capped (block.word (pos + 1))
  simp only [hcap] at h
  -- What is reported lies below, and the block is there where its words were read.
  have hreport : ∃ err db', (db'.1 < ABOVE ∧ db'.2 < ABOVE) ∧
      (is_leaf_type (block.word (pos + 4)) → pos + 8 ≤ block.size) ∧
      get_dB_range_any fuel (block.skip (pos + 4)) (block.word pos).toInt (block.word (pos + 1)).toInt db =
        pure (err, db') := by
    by_cases hleaf : is_leaf_type (block.word (pos + 4))
    · obtain ⟨hsize, hreport⟩ := leaf_returns fuel (block.skip (pos + 4)) _ _ _ hleaf (toInt_isInt _) (toInt_isInt _)
        h.head
      rw [skip_size] at hsize
      exact ⟨0, _, leaf_report_below _ _ _ (toInt_isInt _) (toInt_isInt _), fun _ => by omega, hreport⟩
    · exact ⟨-EINVAL, db, hbelow, fun h => absurd h hleaf,
        unknown_returns fuel (block.skip (pos + 4)) _ _ _ hleaf hrange h.head⟩
  obtain ⟨err, db', hbelow', hdata, hreport⟩ := hreport
  have hround := h.rest (err, db') (by rw [hreport]; rfl)
  dsimp only at hround
  rw [if_neg (by omega), if_neg (by omega), if_neg hend] at hround
  obtain ⟨hsize, hnext⟩ := hround.read
  have hstep : pos + 2 + int_index (block.word (pos + 2 + 3)) + 4 = pos + 6 + int_index (block.word (pos + 5)) := by
    rw [Nat.add_assoc pos 2 3]
    omega
  rw [hstep] at hnext
  exact ⟨by omega, hdata, _, db', hbelow', hnext⟩

end Walks

/-- The places that a walk over the words of the block comes to. -/
inductive OnWalk (block : Words) (next : Words → Nat → Nat) : Nat → Prop
  | first : OnWalk block next 2
  | next (pos : Nat) (h : OnWalk block next pos) (hpos : pos + 4 ≤ int_index (block.word 1)) :
      OnWalk block next (next block pos)

/-- From an entry to the next one. -/
def next_entry (block : Words) (pos : Nat) : Nat := pos + 4 + int_index (block.word (pos + 3))

/-- What a conversion to volumes takes for the next entry. -/
def next_back (block : Words) (pos : Nat) : Nat := pos + 6 + int_index (block.word (pos + 5))

/-- A conversion to volumes finds no DB_RANGE block two words behind an entry. -/
def FlatBack (block : Words) : Prop :=
  block.word 0 = SND_CTL_TLVT_DB_RANGE → int_index (block.word 1) ≤ MAX_TLV_RANGE_SIZE →
    ∀ pos, OnWalk block next_back pos → pos + 4 ≤ int_index (block.word 1) →
      block.word (pos + 4) ≠ SND_CTL_TLVT_DB_RANGE

theorem entries_from (block : Words) (hrange : block.word 0 = SND_CTL_TLVT_DB_RANGE)
    (hlimit : int_index (block.word 1) ≤ MAX_TLV_RANGE_SIZE) (hflat : FlatBack block) (fuel pos : Nat)
    (prev_submax : Int) (db : Int × Int) (hpos : OnWalk block next_back pos) (hbelow : db.1 < ABOVE ∧ db.2 < ABOVE)
    (h : (from_dB_range_loop_any fuel block (int_index (block.word 1)) pos prev_submax db ABOVE ABOVE 0).Returns) :
    EntriesFrom block (int_index (block.word 1)) pos := by
  induction fuel generalizing pos prev_submax db with
  | zero => exact absurd h (Possible.not_returns_error not_leavesOpen_diverge)
  | succ fuel ih =>
    by_cases hmore : pos + 4 ≤ int_index (block.word 1)
    · have hblock := hflat hrange hlimit pos hpos hmore
      obtain ⟨hsize, hdata, prev_submax', db', hbelow', hnext⟩ :=
        back_step fuel pos prev_submax db hmore hblock hbelow h
      have hskip := skip_size block (pos + 4)
      have hcomplete : Complete (block.skip (pos + 4)) := by
        refine complete_single _ hblock (by omega) fun hleaf => ?_
        have hwords := hdata hleaf
        omega
      exact .entry block _ pos hsize hcomplete.report hcomplete.from_dB
        (ih _ prev_submax' db' (.next pos hpos hmore) hbelow' hnext)
    · exact .done block _ pos hmore

theorem SafeToConvert.gains {block : Words} (h : SafeToConvert block) (volume : Int) : WholeTo volume block :=
  (to_dB_whole ⟨trivial, not_leavesOpen_read⟩ ⟨trivial, not_leavesOpen_diverge⟩ volume _).1 _ 0 0
    (h.to_dB 0 0 volume).of_stops

theorem SafeToConvert.reports {block : Words} (h : SafeToConvert block) (rangemax : Int) :
    ∃ ok, WholeReport block rangemax ok := by
  obtain ⟨ok, hwhole, -⟩ := (report_whole _).1 _ _ _ _ (h.range 0 rangemax (0, 0))
  exact ⟨ok, hwhole⟩

theorem complete_of_safe (block : Words) (hflat : FlatBack block) (hsafe : SafeToConvert block) : Complete block := by
  refine ⟨hsafe.gains, hsafe.reports, ?_⟩
  by_cases hrange : block.word 0 = SND_CTL_TLVT_DB_RANGE
  · refine .range block hrange ((hsafe.gains 0).length hrange) fun hlen hlimit => ?_
    have h := hsafe.from_dB ABOVE ABOVE ABOVE 0
    rw [snd_tlv_convert_from_dB_any, convert_from_dB_any] at h
    obtain ⟨-, h⟩ := h.read
    rw [if_pos hrange] at h
    obtain ⟨-, h⟩ := h.read
    dsimp only at h
    rw [if_neg (not_or.mpr ⟨not_lt.mpr hlen, not_lt.mpr hlimit⟩)] at h
    exact entries_from block hrange hlimit hflat _ 2 0 (0, 0) .first (by decide) (h.rest (0, 0) ⟨_, rfl⟩)
  · exact .single block hrange (hsafe.gains 0).size (hsafe.gains 0).data

/-! ## DB_RANGE without DB_RANGE in it -/

/-- A walk that moves on comes to an end, so what holds behind the words holds from the start if each
place takes it over from the next. -/
theorem walk_induction (block : Words) (next : Words → Nat → Nat) (hnext : ∀ pos, pos < next block pos) (P : Nat → Prop)
    (hdone : ∀ pos, ¬ pos + 4 ≤ int_index (block.word 1) → P pos)
    (hround : ∀ pos, OnWalk block next pos → pos + 4 ≤ int_index (block.word 1) → P (next block pos) → P pos) :
    P 2 := by
  have hall : ∀ left pos, int_index (block.word 1) ≤ pos + left → OnWalk block next pos → P pos := by
    intro left
    induction left using Nat.strong_induction_on with
    | _ left ih =>
      intro pos hleft hpos
      by_cases hmore : pos + 4 ≤ int_index (block.word 1)
      · have hlt := hnext pos
        exact hround pos hpos hmore (ih (left - 1) (by omega) _ (by omega) (.next pos hpos hmore))
      · exact hdone pos hmore
  exact hall _ 2 (Nat.le_add_left _ 2) .first

/-- No entry has a DB_RANGE block, there or two words further on. -/
structure Flat (block : Words) : Prop where
  entries : ∀ pos, OnWalk block next_entry pos → pos + 4 ≤ int_index (block.word 1) →
    block.word (pos + 2) ≠ SND_CTL_TLVT_DB_RANGE
  back : FlatBack block

/-- Two words of data lie behind each type that a conversion to volumes comes to. -/
def FitsBack (block : Words) : Prop :=
  ∀ pos, OnWalk block next_back pos → pos + 4 ≤ int_index (block.word 1) → is_leaf_type (block.word (pos + 4)) →
    pos + 6 ≤ int_index (block.word 1)

theorem complete_of_flat (block : Words) (hrange : block.word 0 = SND_CTL_TLVT_DB_RANGE)
    (hsize : block.size = int_index (block.word 1) + 2) (hflat : Flat block) (hback : FitsBack block) :
    Complete block := by
  have hforth : ∀ pos, pos < next_entry block pos := fun pos => by rw [next_entry]; omega
  have hentry : ∀ pos, OnWalk block next_entry pos → pos + 4 ≤ int_index (block.word 1) →
      Complete (block.skip (pos + 2)) := by
    intro pos hpos hmore
    have hskip := skip_size block (pos + 2)
    exact complete_single _ (hflat.entries pos hpos hmore) (by omega) fun _ => by omega
  refine ⟨fun volume => .range block hrange (by omega) fun hlimit => ?_, fun rangemax => ?_,
    .range block hrange (by omega) fun hlen hlimit => ?_⟩
  · refine walk_induction block next_entry hforth _ (fun pos hdone => .done block _ pos hdone)
      (fun pos hpos hmore hrest => ?_)
    by_cases hin : InEntry block pos volume
    · exact .inside block _ pos (by omega) hin ((hentry pos hpos hmore).to_dB volume)
    · exact .outside block _ pos (by omega) hin hrest
  · by_cases hlimit : int_index (block.word 1) ≤ MAX_TLV_RANGE_SIZE
    · have hentries : ∃ ok, EntriesReport block (int_index (block.word 1)) 2 rangemax ok := by
        refine walk_induction block next_entry hforth (fun pos => ∃ ok, EntriesReport block _ pos rangemax ok)
          (fun pos hdone => ⟨true, .done block _ pos rangemax hdone⟩) (fun pos hpos hmore hrest => ?_)
        obtain ⟨ok, hblock⟩ := (hentry pos hpos hmore).report (min rangemax (block.word (pos + 1)).toInt)
        cases ok with
        | false => exact ⟨false, .fails block _ pos rangemax hmore (by omega) hblock⟩
        | true =>
          by_cases hlast : rangemax ≤ (block.word (pos + 1)).toInt
          · exact ⟨true, .last block _ pos rangemax hmore (by omega) hblock hlast⟩
          · obtain ⟨ok, hrest⟩ := hrest
            exact ⟨ok, .next block _ pos rangemax ok hmore (by omega) hblock (not_le.mp hlast) hrest⟩
      obtain ⟨ok, hentries⟩ := hentries
      exact ⟨ok, .range block rangemax ok hrange (by omega) hlimit hentries⟩
    · exact ⟨false, .long block rangemax hrange (by omega) (not_le.mp hlimit)⟩
  · refine walk_induction block next_back (fun pos => by rw [next_back]; omega) _
      (fun pos hdone => .done block _ pos hdone) (fun pos hpos hmore hrest => ?_)
    have hskip := skip_size block (pos + 4)
    have hblock : Complete (block.skip (pos + 4)) := by
      refine complete_single _ (hflat.back hrange hlimit pos hpos hmore) (by omega) fun hleaf => ?_
      have hfits := hback pos hpos hmore hleaf
      omega
    exact .entry block _ pos (by omega) hblock.report hblock.from_dB hrest

theorem WholeReport.data {block : Words} {rangemax : Int} {ok : Bool} (h : WholeReport block rangemax ok)
    (hleaf : is_leaf_type (block.word 0)) : 4 ≤ block.size := by
  cases h with
  | leaf _ _ _ hsize => exact hsize
  | unknown _ _ hnot => exact absurd hleaf hnot
  | long _ _ hrange => exact absurd hrange (not_range_of_leaf _ hleaf)
  | range _ _ _ hrange => exact absurd hrange (not_range_of_leaf _ hleaf)

theorem fitsBack_of_entries (block : Words) (hsize : block.size = int_index (block.word 1) + 2)
    (h : EntriesFrom block (int_index (block.word 1)) 2) : FitsBack block := by
  have hentries : ∀ pos, OnWalk block next_back pos → EntriesFrom block (int_index (block.word 1)) pos := by
    intro pos hpos
    induction hpos with
    | first => exact h
    | next pos _ hmore ih =>
      cases ih with
      | done _ _ _ hdone => exact absurd hmore hdone
      | entry _ _ _ _ _ _ hrest => exact hrest
  intro pos hpos hmore hleaf
  cases hentries pos hpos with
  | done _ _ _ hdone => exact absurd hmore hdone
  | entry _ _ _ _ hreport =>
    obtain ⟨ok, hok⟩ := hreport 0
    have hdata := hok.data hleaf
    rw [skip_size] at hdata
    omega

/-- A DB_RANGE block that is too short for an entry, or too long. -/
theorem complete_unentered (block : Words) (hrange : block.word 0 = SND_CTL_TLVT_DB_RANGE) (hsize : 2 ≤ block.size)
    (hlen : int_index (block.word 1) < 6 ∨ MAX_TLV_RANGE_SIZE < int_index (block.word 1)) : Complete block := by
  refine ⟨fun _ => .range block hrange hsize fun hlimit => .done block _ 2 (by omega), fun rangemax => ?_,
    .range block hrange hsize fun hfirst hlimit => by omega⟩
  by_cases hlimit : int_index (block.word 1) ≤ MAX_TLV_RANGE_SIZE
  · exact ⟨true, .range block rangemax true hrange hsize hlimit (.done block _ 2 rangemax (by omega))⟩
  · exact ⟨false, .long block rangemax hrange hsize (not_le.mp hlimit)⟩

/-! ## Accepted blocks -/

theorem accepted_block_safe (tlv : Words) (tlv_size : BitVec 32) (n : Int) (pos : Nat)
    (hparse : snd_tlv_parse_dB_info tlv tlv_size = .ok (n, some pos)) :
    (Complete (db_copy tlv pos n) → SafeToConvert (db_copy tlv pos n)) ∧
      (FlatBack (db_copy tlv pos n) → SafeToConvert (db_copy tlv pos n) → Complete (db_copy tlv pos n)) ∧
      (tlv.word pos ≠ SND_CTL_TLVT_DB_RANGE → (SafeToConvert (db_copy tlv pos n) ↔ 16 ≤ n)) ∧
      (tlv.word pos = SND_CTL_TLVT_DB_RANGE →
        int_index (tlv.word (pos + 1)) < 6 ∨ MAX_TLV_RANGE_SIZE < int_index (tlv.word (pos + 1)) →
        (SafeToConvert (db_copy tlv pos n) ↔ 8 ≤ n)) ∧
      (tlv.word pos = SND_CTL_TLVT_DB_RANGE → 6 ≤ int_index (tlv.word (pos + 1)) →
        int_index (tlv.word (pos + 1)) ≤ MAX_TLV_RANGE_SIZE → n % 4 = 0 → Flat (db_copy tlv pos n) →
        (SafeToConvert (db_copy tlv pos n) ↔ FitsBack (db_copy tlv pos n))) := by
  have hsize : (db_copy tlv pos n).size = n.toNat / 4 := rfl
  obtain ⟨hfound, hret⟩ := (parse_found tlv _).1 _ _ _ _ hparse
  refine ⟨safe_of_complete _, complete_of_safe _, fun htype => ?_, fun hrange hlen => ?_,
    fun hrange hfirst hlimit hwords hflat => ?_⟩
  · have hleaf : is_leaf_type ((db_copy tlv pos n).word 0) := by
      change is_leaf_type (tlv.word pos) = true
      simp only [is_dB_type, is_leaf_type, Bool.or_eq_true, beq_iff_eq] at hfound ⊢
      tauto
    constructor
    · intro hsafe
      obtain ⟨ok, hok⟩ := hsafe.reports 0
      have hdata := hok.data hleaf
      omega
    · intro hn
      exact safe_of_complete _ (complete_single _ htype (by omega) fun _ => by omega)
  · constructor
    · intro hsafe
      have hheader := (hsafe.gains 0).length hrange
      omega
    · intro hn
      exact safe_of_complete _ (complete_unentered _ hrange (by omega) hlen)
  · have hlen : (db_copy tlv pos n).size = int_index (tlv.word (pos + 1)) + 2 := by
      simp only [int_index, MAX_TLV_RANGE_SIZE] at hfirst hlimit ⊢
      rw [IsInt.cut ⟨by omega, by omega⟩] at hret
      omega
    constructor
    · intro hsafe
      cases (complete_of_safe _ hflat.back hsafe).from_dB with
      | single _ hsingle => exact absurd hrange hsingle
      | range _ _ _ hentries => exact fitsBack_of_entries _ hlen (hentries hfirst hlimit)
    · intro hback
      exact safe_of_complete _ (complete_of_flat _ hrange hlen hflat hback)

def one_entry : Words :=
  Words.ofList [SND_CTL_TLVT_DB_RANGE, 24#32, 0#32, 10#32, SND_CTL_TLVT_DB_SCALE, 8#32, 0xfffffc18#32, 100#32]

/-- The minimum of the entry is not a type, and the walk for volumes ends there. -/
theorem one_entry_safe : snd_tlv_parse_dB_info one_entry 32#32 = .ok (32, some 0) ∧
    SafeToConvert (db_copy one_entry 0 32) := by
  have hparse : snd_tlv_parse_dB_info one_entry 32#32 = .ok (32, some 0) := by rfl
  obtain ⟨-, -, -, -, hflat⟩ := accepted_block_safe one_entry 32#32 32 0 hparse
  have hforth : ∀ pos, OnWalk (db_copy one_entry 0 32) next_entry pos → pos + 4 ≤ 6 → pos = 2 := by
    intro pos hpos hmore
    cases hpos with
    | first => rfl
    | next pos =>
      rw [next_entry] at hmore
      omega
  have hback : ∀ pos, OnWalk (db_copy one_entry 0 32) next_back pos → pos + 4 ≤ 6 → pos = 2 := by
    intro pos hpos hmore
    cases hpos with
    | first => rfl
    | next pos =>
      rw [next_back] at hmore
      omega
  refine ⟨hparse, (hflat (by decide) (by decide) (by decide) (by decide) ⟨fun pos hpos hmore => ?_,
    fun _ _ pos hpos hmore => ?_⟩).mpr fun pos hpos hmore hleaf => ?_⟩
  · rw [hforth pos hpos hmore]
    decide
  · rw [hback pos hpos hmore]
    decide
  · rw [hback pos hpos hmore] at hleaf
    exact absurd hleaf (by decide)

def short_scale : Words := Words.ofList [SND_CTL_TLVT_DB_SCALE, 4#32, 0#32]

/-- A DB_SCALE block with one word of data is accepted, and its step is read behind the copy. -/
theorem short_scale_not_safe : ¬ ∀ tlv tlv_size n pos, snd_tlv_parse_dB_info tlv tlv_size = .ok (n, some pos) →
    0 < n → SafeToConvert (db_copy tlv pos n) := by
  intro hall
  have hparse : snd_tlv_parse_dB_info short_scale 12#32 = .ok (12, some 0) := by rfl
  have hread : snd_tlv_convert_to_dB (db_copy short_scale 0 12) 0 100 50 = .error .read := by rfl
  have hsafe := (hall short_scale 12#32 12 0 hparse (by norm_num)).to_dB 0 100 50
  rw [hread] at hsafe
  exact Possible.not_returns_error not_leavesOpen_read hsafe

end Salsa.Tlv
