import Salsa.Tlv.Reads

/-!
# Blocks with all their words

The conversions read words of their block only, where each block that they come to in it lies in it
with its words.
-/

namespace Salsa.Tlv

open CInt

/-! ## Gains -/

mutual

/-- The blocks that the conversion of the volume comes to are there. -/
inductive WholeTo (volume : Int) : Words → Prop
  | single (block : Words) (hrange : block.word 0 ≠ SND_CTL_TLVT_DB_RANGE) (hsize : 0 < block.size)
      (hdata : is_leaf_type (block.word 0) → block.word 0 ≠ SND_CTL_TLVT_DB_LINEAR → 4 ≤ block.size) :
      WholeTo volume block
  | range (block : Words) (hrange : block.word 0 = SND_CTL_TLVT_DB_RANGE) (hsize : 2 ≤ block.size)
      (hentries : int_index (block.word 1) ≤ MAX_TLV_RANGE_SIZE →
        EntriesTo volume block (int_index (block.word 1)) 2) : WholeTo volume block

/-- The entries from word `pos` on, up to the first one for the volume. -/
inductive EntriesTo (volume : Int) : Words → Nat → Nat → Prop
  | done (block : Words) (len pos : Nat) (hpos : ¬ pos + 4 ≤ len) : EntriesTo volume block len pos
  | inside (block : Words) (len pos : Nat) (hsize : pos + 2 ≤ block.size) (hin : InEntry block pos volume)
      (hblock : WholeTo volume (block.skip (pos + 2))) : EntriesTo volume block len pos
  | outside (block : Words) (len pos : Nat) (hsize : pos + 4 ≤ block.size) (hout : ¬ InEntry block pos volume)
      (hrest : EntriesTo volume block len (pos + 4 + int_index (block.word (pos + 3)))) :
      EntriesTo volume block len pos

end

theorem WholeTo.size {volume : Int} {block : Words} (h : WholeTo volume block) : 0 < block.size := by
  cases h with
  | single _ _ hsize => exact hsize
  | range _ _ hsize => omega

theorem WholeTo.data {volume : Int} {block : Words} (h : WholeTo volume block) (hleaf : is_leaf_type (block.word 0))
    (hlinear : block.word 0 ≠ SND_CTL_TLVT_DB_LINEAR) : 4 ≤ block.size := by
  cases h with
  | single _ _ _ hdata => exact hdata hleaf hlinear
  | range _ hrange => exact absurd hrange (not_range_of_leaf _ hleaf)

theorem WholeTo.length {volume : Int} {block : Words} (h : WholeTo volume block)
    (hrange : block.word 0 = SND_CTL_TLVT_DB_RANGE) : 2 ≤ block.size := by
  cases h with
  | single _ hsingle => exact absurd hrange hsingle
  | range _ _ hsize => exact hsize

theorem WholeTo.entries {volume : Int} {block : Words} (h : WholeTo volume block)
    (hrange : block.word 0 = SND_CTL_TLVT_DB_RANGE) (hlen : int_index (block.word 1) ≤ MAX_TLV_RANGE_SIZE) :
    EntriesTo volume block (int_index (block.word 1)) 2 := by
  cases h with
  | single _ hsingle => exact absurd hrange hsingle
  | range _ _ _ hentries => exact hentries hlen

theorem whole_to_dB {bad : Fault → Prop} (hends : ¬ bad .diverge) (hover : ¬ bad .overflow) (hdiv : ¬ bad .divide)
    (volume : Int) (fuel : Nat) :
    (∀ tlv rangemin rangemax, WholeTo volume tlv → Avoids bad (convert_to_dB fuel tlv rangemin rangemax volume)) ∧
      ∀ tlv len pos, EntriesTo volume tlv len pos → Avoids bad (to_dB_range_loop fuel tlv len pos volume) := by
  have hread : ∀ (tlv : Words) i, i < tlv.size → Avoids bad (tlv.read i) := fun tlv i hi =>
    avoids_read tlv i fun _ => hi
  induction fuel with
  | zero => exact ⟨fun _ _ _ _ => avoids_error _ hends, fun _ _ _ _ => avoids_error _ hends⟩
  | succ fuel ih =>
    obtain ⟨hconvert, hloop⟩ := ih
    constructor
    · intro tlv rangemin rangemax h
      exact convert_to_dB_avoids fuel tlv hover hdiv (hread tlv 0 h.size)
        (fun hleaf hlinear i hi => hread tlv i (lt_of_lt_of_le hi (h.data hleaf hlinear)))
        (fun hrange => hread tlv 1 (h.length hrange)) _ _ _ fun hrange hlen => hloop _ _ _ (h.entries hrange hlen)
    · intro tlv len pos h
      cases h with
      | done _ _ _ hpos =>
        rw [to_dB_range_loop, if_neg hpos]
        exact avoids_pure _
      | inside _ _ _ hsize hin hblock =>
        exact to_dB_range_loop_avoids fuel tlv len pos volume (hread tlv pos (by omega))
          (hread tlv (pos + 1) (by omega)) (fun hout => absurd hin hout) (fun _ _ _ _ => hconvert _ _ _ hblock)
          (fun hout => absurd hin hout)
      | outside _ _ _ hsize hout hrest =>
        exact to_dB_range_loop_avoids fuel tlv len pos volume (hread tlv pos (by omega))
          (hread tlv (pos + 1) (by omega)) (fun _ => hread tlv (pos + 3) (by omega)) (fun hin => absurd hin hout)
          (fun _ _ => hloop _ _ _ hrest)

theorem leaf_to_dB_reads (fuel : Nat) (tlv : Words) (rangemin rangemax volume : Int)
    (hleaf : is_leaf_type (tlv.word 0)) (hlinear : tlv.word 0 ≠ SND_CTL_TLVT_DB_LINEAR) (hsize : tlv.size < 4) :
    convert_to_dB (fuel + 1) tlv rangemin rangemax volume = .error .read := by
  have hlast : tlv.read 3 = .error .read := tlv.read_error 3 (by omega)
  rw [convert_to_dB]
  rcases read_cases tlv 0 with h0 | h0
  · rw [h0, ok_bind, if_neg (not_range_of_leaf _ hleaf)]
    split_ifs with hscale hminmax
    · rw [tlv_to_dB_scale, hlast]
      rcases read_cases tlv 2 with h2 | h2 <;> rw [h2] <;> rfl
    · rw [tlv_to_dB_minmax, hlast]
      rcases read_cases tlv 2 with h2 | h2 <;> rw [h2] <;> rfl
    · rw [not_or] at hminmax
      simp [is_leaf_type, hscale, hminmax, hlinear] at hleaf
  · rw [h0]
    rfl

/-- A conversion that neither leaves its memory nor goes on forever comes to blocks that are there. -/
theorem to_dB_whole {bad : Fault → Prop} (hread : bad .read) (hends : bad .diverge) (volume : Int) (fuel : Nat) :
    (∀ tlv rangemin rangemax, Avoids bad (convert_to_dB fuel tlv rangemin rangemax volume) → WholeTo volume tlv) ∧
      ∀ tlv len pos, Avoids bad (to_dB_range_loop fuel tlv len pos volume) → EntriesTo volume tlv len pos := by
  induction fuel with
  | zero => exact ⟨fun _ _ _ h => absurd rfl (h .diverge hends), fun _ _ _ h => absurd rfl (h .diverge hends)⟩
  | succ fuel ih =>
    obtain ⟨hconvert, hloop⟩ := ih
    constructor
    · intro tlv rangemin rangemax h
      have hdata : is_leaf_type (tlv.word 0) → tlv.word 0 ≠ SND_CTL_TLVT_DB_LINEAR → 4 ≤ tlv.size := by
        intro hleaf hlinear
        by_contra hlt
        exact h .read hread (leaf_to_dB_reads fuel tlv _ _ _ hleaf hlinear (by omega))
      rw [convert_to_dB] at h
      obtain ⟨htype, h⟩ := h.read hread
      by_cases hrange : tlv.word 0 = SND_CTL_TLVT_DB_RANGE
      · rw [if_pos hrange] at h
        obtain ⟨hsize, h⟩ := h.read hread
        refine .range tlv hrange hsize fun hlen => ?_
        dsimp only at h
        rw [if_neg (not_lt.mpr hlen)] at h
        exact hloop _ _ _ h
      · exact .single tlv hrange htype hdata
    · intro tlv len pos h
      by_cases hpos : pos + 4 ≤ len
      · rw [to_dB_range_loop, if_pos hpos] at h
        obtain ⟨-, h⟩ := h.read hread
        obtain ⟨hentry, h⟩ := h.read hread
        by_cases hin : InEntry tlv pos volume
        · dsimp only at h
          rw [if_pos (by exact hin)] at h
          exact .inside tlv len pos hentry hin (hconvert _ _ _ h)
        · dsimp only at h
          rw [if_neg (by exact hin)] at h
          obtain ⟨hnext, h⟩ := h.read hread
          rw [show pos + 3 + int_index (tlv.word (pos + 3)) + 1 = pos + 4 + int_index (tlv.word (pos + 3)) by omega]
            at h
          exact .outside tlv len pos hnext hin (hloop _ _ _ h)
      · exact .done tlv len pos hpos

/-! ## Reports -/

def status (ok : Bool) : Int := if ok then 0 else -EINVAL

mutual

/-- The blocks that a report up to `rangemax` comes to are there; `ok` says whether it succeeds. -/
inductive WholeReport : Words → Int → Bool → Prop
  | leaf (block : Words) (rangemax : Int) (hleaf : is_leaf_type (block.word 0)) (hsize : 4 ≤ block.size) :
      WholeReport block rangemax true
  | unknown (block : Words) (rangemax : Int) (hleaf : ¬ is_leaf_type (block.word 0))
      (hrange : block.word 0 ≠ SND_CTL_TLVT_DB_RANGE) (hsize : 0 < block.size) : WholeReport block rangemax false
  | long (block : Words) (rangemax : Int) (hrange : block.word 0 = SND_CTL_TLVT_DB_RANGE) (hsize : 2 ≤ block.size)
      (hlen : MAX_TLV_RANGE_SIZE < int_index (block.word 1)) : WholeReport block rangemax false
  | range (block : Words) (rangemax : Int) (ok : Bool) (hrange : block.word 0 = SND_CTL_TLVT_DB_RANGE)
      (hsize : 2 ≤ block.size) (hlen : int_index (block.word 1) ≤ MAX_TLV_RANGE_SIZE)
      (hentries : EntriesReport block (int_index (block.word 1)) 2 rangemax ok) : WholeReport block rangemax ok

/-- The entries from word `pos` on, up to the first that fails or gets up to `rangemax`. -/
inductive EntriesReport : Words → Nat → Nat → Int → Bool → Prop
  | done (block : Words) (len pos : Nat) (rangemax : Int) (hpos : ¬ pos + 4 ≤ len) :
      EntriesReport block len pos rangemax true
  | fails (block : Words) (len pos : Nat) (rangemax : Int) (hpos : pos + 4 ≤ len) (hsize : pos + 2 ≤ block.size)
      (hblock : WholeReport (block.skip (pos + 2)) (min rangemax (block.word (pos + 1)).toInt) false) :
      EntriesReport block len pos rangemax false
  | last (block : Words) (len pos : Nat) (rangemax : Int) (hpos : pos + 4 ≤ len) (hsize : pos + 2 ≤ block.size)
      (hblock : WholeReport (block.skip (pos + 2)) (min rangemax (block.word (pos + 1)).toInt) true)
      (hlast : rangemax ≤ (block.word (pos + 1)).toInt) : EntriesReport block len pos rangemax true
  | next (block : Words) (len pos : Nat) (rangemax : Int) (ok : Bool) (hpos : pos + 4 ≤ len)
      (hsize : pos + 4 ≤ block.size)
      (hblock : WholeReport (block.skip (pos + 2)) (min rangemax (block.word (pos + 1)).toInt) true)
      (hnext : (block.word (pos + 1)).toInt < rangemax)
      (hrest : EntriesReport block len (pos + 4 + int_index (block.word (pos + 3))) rangemax ok) :
      EntriesReport block len pos rangemax ok

end

open Possible (bind_ok_iff of_error)

theorem round_ok_iff (fuel : Nat) (tlv : Words) (len pos : Nat) (rangemax : Int) (out : Int × Int) (r : Int × Int × Int)
    (hpos : pos + 4 ≤ len) (hsize : pos + 1 < tlv.size) :
    range_dB_range_loop_any (fuel + 1) tlv len pos rangemax out (.ok r) ↔
      ∃ sub err rmin rmax, get_dB_range_any fuel (tlv.skip (pos + 2)) (tlv.word pos).toInt
          (min rangemax (tlv.word (pos + 1)).toInt) sub (.ok (err, rmin, rmax)) ∧
        after_report fuel tlv len pos rangemax out err rmin rmax (.ok r) := by
  rw [range_dB_range_loop_any_round _ _ _ _ _ _ hpos hsize, bind_ok_iff]
  constructor
  · rintro ⟨sub, -, h⟩
    rw [bind_ok_iff] at h
    obtain ⟨⟨err, rmin, rmax⟩, hsub, h⟩ := h
    exact ⟨sub, err, rmin, rmax, hsub, h⟩
  · rintro ⟨sub, err, rmin, rmax, hsub, h⟩
    exact ⟨sub, ⟨_, rfl⟩, (bind_ok_iff _ _ _).mpr ⟨(err, rmin, rmax), hsub, h⟩⟩

theorem report_status (fuel : Nat) :
    (∀ tlv rangemin rangemax ok out err report, WholeReport tlv rangemax ok →
        get_dB_range_any fuel tlv rangemin rangemax out (.ok (err, report)) → err = status ok) ∧
      ∀ tlv len pos rangemax ok out err report, EntriesReport tlv len pos rangemax ok →
        range_dB_range_loop_any fuel tlv len pos rangemax out (.ok (err, report)) → err = status ok := by
  induction fuel with
  | zero =>
    exact ⟨fun _ _ _ _ _ _ _ _ h => absurd ((of_error _ not_leavesOpen_diverge _).mp h) (by rintro ⟨⟩),
      fun _ _ _ _ _ _ _ _ _ h => absurd ((of_error _ not_leavesOpen_diverge _).mp h) (by rintro ⟨⟩)⟩
  | succ fuel ih =>
    obtain ⟨hreport, hloop⟩ := ih
    constructor
    · intro tlv rangemin rangemax ok out err report hwhole h
      cases hwhole with
      | leaf _ _ hleaf hsize =>
        rw [get_dB_range_any_leaf _ _ _ _ _ hleaf, bind_ok_iff] at h
        obtain ⟨r, -, h⟩ := h
        cases h
        rfl
      | unknown _ _ hleaf hrange hsize =>
        rw [get_dB_range_any_unknown _ _ _ _ _ hsize hleaf hrange] at h
        cases h
        rfl
      | long _ _ hrange hsize hlen =>
        rw [get_dB_range_any_range _ _ _ _ _ hsize hrange, if_pos hlen] at h
        cases h
        rfl
      | range _ _ _ hrange hsize hlen hentries =>
        rw [get_dB_range_any_range _ _ _ _ _ hsize hrange, if_neg (not_lt.mpr hlen)] at h
        exact hloop _ _ _ _ _ _ _ _ hentries h
    · intro tlv len pos rangemax ok out err report hentries h
      cases hentries with
      | done _ _ _ _ hpos =>
        rw [range_dB_range_loop_any, if_neg hpos] at h
        cases h
        rfl
      | fails _ _ _ _ hpos hsize hblock =>
        obtain ⟨sub, err', rmin, rmax, hsub, h⟩ := (round_ok_iff _ _ _ _ _ _ _ hpos (by omega)).mp h
        rw [hreport _ _ _ _ _ _ _ hblock hsub, after_report_fails _ _ _ _ _ _ _ _ _ (by decide)] at h
        cases h
        rfl
      | last _ _ _ _ hpos hsize hblock hlast =>
        obtain ⟨sub, err', rmin, rmax, hsub, h⟩ := (round_ok_iff _ _ _ _ _ _ _ hpos (by omega)).mp h
        obtain ⟨merged, hend⟩ :=
          after_report_last fuel tlv len pos rangemax out (status true) rmin rmax (by decide) hlast
        rw [hreport _ _ _ _ _ _ _ hblock hsub, hend] at h
        cases h
        rfl
      | next _ _ _ _ _ hpos hsize hblock hnext hrest =>
        obtain ⟨sub, err', rmin, rmax, hsub, h⟩ := (round_ok_iff _ _ _ _ _ _ _ hpos (by omega)).mp h
        obtain ⟨merged, hgo⟩ :=
          after_report_next fuel tlv len pos rangemax out (status true) rmin rmax (by decide) hnext
        rw [hreport _ _ _ _ _ _ _ hblock hsub, hgo, tlv.read_ok (pos + 3) (by omega), Possible.of_ok_bind] at h
        exact hloop _ _ _ _ _ _ _ _ hrest h

theorem whole_report {bad : Fault → Prop} (hends : ¬ bad .diverge) (fuel : Nat) :
    (∀ tlv rangemin rangemax ok out, WholeReport tlv rangemax ok →
        (get_dB_range_any fuel tlv rangemin rangemax out).Avoids bad) ∧
      ∀ tlv len pos rangemax ok out, EntriesReport tlv len pos rangemax ok →
        (range_dB_range_loop_any fuel tlv len pos rangemax out).Avoids bad := by
  induction fuel with
  | zero =>
    exact ⟨fun _ _ _ _ _ _ => Possible.avoids_of_error hends, fun _ _ _ _ _ _ _ => Possible.avoids_of_error hends⟩
  | succ fuel ih =>
    obtain ⟨hreport, hloop⟩ := ih
    constructor
    · intro tlv rangemin rangemax ok out h
      cases h with
      | leaf _ _ hleaf hsize =>
        exact get_dB_range_avoids fuel tlv (fun _ => by omega) (fun _ _ => by omega) (fun _ _ => hsize) _ _ _
          fun hrange => absurd hrange (not_range_of_leaf _ hleaf)
      | unknown _ _ hleaf hrange hsize =>
        rw [get_dB_range_any_unknown _ _ _ _ _ hsize hleaf hrange]
        exact Possible.avoids_pure _
      | long _ _ hrange hsize hlen =>
        rw [get_dB_range_any_range _ _ _ _ _ hsize hrange, if_pos hlen]
        exact Possible.avoids_pure _
      | range _ _ _ hrange hsize hlen hentries =>
        rw [get_dB_range_any_range _ _ _ _ _ hsize hrange, if_neg (not_lt.mpr hlen)]
        exact hloop _ _ _ _ _ _ hentries
    · intro tlv len pos rangemax ok out h
      cases h with
      | done _ _ _ _ hpos =>
        rw [range_dB_range_loop_any, if_neg hpos]
        exact Possible.avoids_pure _
      | fails _ _ _ _ hpos hsize hblock =>
        refine range_dB_range_loop_avoids fuel tlv len pos (fun _ _ => by omega) rangemax out
          (fun _ _ _ => hreport _ _ _ _ _ hblock) fun _ _ hok => ?_
        obtain ⟨sub, err, report, hsub, herr⟩ := hok
        rw [(report_status fuel).1 _ _ _ _ _ _ _ hblock hsub] at herr
        exact absurd herr (by decide)
      | last _ _ _ _ hpos hsize hblock hlast =>
        exact range_dB_range_loop_avoids fuel tlv len pos (fun _ _ => by omega) rangemax out
          (fun _ _ _ => hreport _ _ _ _ _ hblock) fun _ hnext => absurd hnext (not_lt.mpr hlast)
      | next _ _ _ _ _ hpos hsize hblock hnext hrest =>
        exact range_dB_range_loop_avoids fuel tlv len pos (fun _ _ => by omega) rangemax out
          (fun _ _ _ => hreport _ _ _ _ _ hblock) fun _ _ _ => ⟨fun _ => by omega, fun _ _ => hloop _ _ _ _ _ _ hrest⟩

/-- A report comes to the last word of the data. -/
theorem leaf_report_reads (fuel : Nat) (tlv : Words) (rangemin rangemax : Int) (out : Option (Int × Int))
    (hleaf : is_leaf_type (tlv.word 0)) (hsize : tlv.size < 4) :
    get_dB_range (fuel + 1) tlv rangemin rangemax out = .error .read := by
  have hlast : tlv.read 3 = .error .read := tlv.read_error 3 (by omega)
  rw [get_dB_range]
  rcases read_cases tlv 0 with h0 | h0
  · rw [h0, ok_bind, if_neg (not_range_of_leaf _ hleaf)]
    split_ifs with hscale hminmax hmute
    · rw [tlv_range_dB_scale, hlast]
      rfl
    · rcases read_cases tlv 2 with h2 | h2
      · rw [h2, ok_bind, hlast]
        rfl
      · rw [h2]
        rfl
    · rw [hlast]
      rfl
    · rw [not_or] at hminmax
      simp [is_leaf_type, hscale, hminmax, hmute] at hleaf
  · rw [h0]
    rfl

/-- The report has a result with a status of which `whole` holds. -/
def ReportsAs (s : Possible (Int × Int × Int)) (whole : Bool → Prop) : Prop :=
  ∃ ok, whole ok ∧ ∃ report, s (.ok (status ok, report))

theorem call_whole (fuel : Nat) (tlv : Words) (rangemin rangemax : Int) (out : Int × Int)
    (hloop : (range_dB_range_loop_any fuel tlv (int_index (tlv.word 1)) 2 rangemax out).Returns →
      ReportsAs (range_dB_range_loop_any fuel tlv (int_index (tlv.word 1)) 2 rangemax out)
        (EntriesReport tlv (int_index (tlv.word 1)) 2 rangemax))
    (h : (get_dB_range_any (fuel + 1) tlv rangemin rangemax out).Returns) :
    ReportsAs (get_dB_range_any (fuel + 1) tlv rangemin rangemax out) (WholeReport tlv rangemax) := by
  have htype : 0 < tlv.size := by
    rw [get_dB_range_any] at h
    exact h.read.1
  by_cases hrange : tlv.word 0 = SND_CTL_TLVT_DB_RANGE
  · have hsize : 2 ≤ tlv.size := by
      rw [get_dB_range_any, tlv.read_ok 0 htype, Possible.lift_eq, Possible.of_ok_bind, if_pos hrange] at h
      exact h.read.1
    rw [get_dB_range_any_range _ _ _ _ _ hsize hrange] at h ⊢
    by_cases hlen : int_index (tlv.word 1) > MAX_TLV_RANGE_SIZE
    · rw [if_pos hlen]
      exact ⟨false, .long tlv rangemax hrange hsize hlen, out, rfl⟩
    · rw [if_neg hlen] at h ⊢
      obtain ⟨ok, hentries, hok⟩ := hloop h
      exact ⟨ok, .range tlv rangemax ok hrange hsize (not_lt.mp hlen) hentries, hok⟩
  · by_cases hleaf : is_leaf_type (tlv.word 0)
    · rw [get_dB_range_any_leaf _ _ _ _ _ hleaf] at h ⊢
      obtain ⟨r, hr⟩ := h.head.exists_ok
      refine ⟨true, .leaf tlv rangemax hleaf ?_, r.2.getD out, (bind_ok_iff _ _ _).mpr ⟨r, hr, rfl⟩⟩
      by_contra hlt
      rw [leaf_report_reads _ _ _ _ _ hleaf (by omega)] at h
      exact Possible.not_returns_error not_leavesOpen_read h.head
    · rw [get_dB_range_any_unknown _ _ _ _ _ htype hleaf hrange]
      exact ⟨false, .unknown tlv rangemax hleaf hrange htype, out, rfl⟩

theorem round_whole (fuel : Nat) (tlv : Words) (len pos : Nat) (rangemax : Int) (out : Int × Int)
    (hreport : ∀ tlv rangemin rangemax out, (get_dB_range_any fuel tlv rangemin rangemax out).Returns →
      ReportsAs (get_dB_range_any fuel tlv rangemin rangemax out) (WholeReport tlv rangemax))
    (hloop : ∀ pos out, (range_dB_range_loop_any fuel tlv len pos rangemax out).Returns →
      ReportsAs (range_dB_range_loop_any fuel tlv len pos rangemax out) (EntriesReport tlv len pos rangemax))
    (hpos : pos + 4 ≤ len) (h : (range_dB_range_loop_any (fuel + 1) tlv len pos rangemax out).Returns) :
    ReportsAs (range_dB_range_loop_any (fuel + 1) tlv len pos rangemax out) (EntriesReport tlv len pos rangemax) := by
  have hsize : pos + 1 < tlv.size := by
    rw [range_dB_range_loop_any, if_pos hpos] at h
    exact h.read.2.read.1
  rw [range_dB_range_loop_any_round _ _ _ _ _ _ hpos hsize] at h
  have hround := h.rest (0, 0) ⟨_, rfl⟩
  obtain ⟨ok, hblock, ⟨rmin, rmax⟩, hsub⟩ := hreport _ _ _ _ hround.head
  have hafter := hround.rest _ hsub
  have hresult : ∀ r, after_report fuel tlv len pos rangemax out (status ok) rmin rmax (.ok r) →
      range_dB_range_loop_any (fuel + 1) tlv len pos rangemax out (.ok r) := fun r hr =>
    (round_ok_iff _ _ _ _ _ _ _ hpos hsize).mpr ⟨(0, 0), _, rmin, rmax, hsub, hr⟩
  cases ok with
  | false =>
    rw [after_report_fails _ _ _ _ _ _ _ _ _ (by decide)] at hresult
    exact ⟨false, .fails tlv len pos rangemax hpos hsize hblock, out, hresult _ rfl⟩
  | true =>
    by_cases hlast : rangemax ≤ (tlv.word (pos + 1)).toInt
    · obtain ⟨merged, hend⟩ := after_report_last fuel tlv len pos rangemax out (status true) rmin rmax (by decide) hlast
      rw [hend] at hresult
      exact ⟨true, .last tlv len pos rangemax hpos hsize hblock hlast, merged, hresult _ rfl⟩
    · have hnext := not_le.mp hlast
      obtain ⟨merged, hgo⟩ := after_report_next fuel tlv len pos rangemax out (status true) rmin rmax (by decide) hnext
      simp only [hgo] at hafter
      obtain ⟨hmore, hrest⟩ := hafter.read
      rw [hgo, tlv.read_ok (pos + 3) hmore, Possible.of_ok_bind] at hresult
      obtain ⟨ok, hentries, report, hok⟩ := hloop _ _ hrest
      exact ⟨ok, .next tlv len pos rangemax ok hpos hmore hblock hnext hentries, report, hresult _ hok⟩

/-- A report that always has a result comes to blocks that are there. -/
theorem report_whole (fuel : Nat) :
    (∀ tlv rangemin rangemax out, (get_dB_range_any fuel tlv rangemin rangemax out).Returns →
        ReportsAs (get_dB_range_any fuel tlv rangemin rangemax out) (WholeReport tlv rangemax)) ∧
      ∀ tlv len pos rangemax out, (range_dB_range_loop_any fuel tlv len pos rangemax out).Returns →
        ReportsAs (range_dB_range_loop_any fuel tlv len pos rangemax out) (EntriesReport tlv len pos rangemax) := by
  induction fuel with
  | zero =>
    exact ⟨fun _ _ _ _ h => absurd h (Possible.not_returns_error not_leavesOpen_diverge),
      fun _ _ _ _ _ h => absurd h (Possible.not_returns_error not_leavesOpen_diverge)⟩
  | succ fuel ih =>
    obtain ⟨hreport, hloop⟩ := ih
    constructor
    · intro tlv rangemin rangemax out h
      exact call_whole fuel tlv rangemin rangemax out (hloop _ _ _ _ _) h
    · intro tlv len pos rangemax out h
      by_cases hpos : pos + 4 ≤ len
      · exact round_whole fuel tlv len pos rangemax out hreport (fun _ _ => hloop _ _ _ _ _) hpos h
      · rw [range_dB_range_loop_any, if_neg hpos]
        exact ⟨true, .done tlv len pos rangemax hpos, out, rfl⟩

/-! ## Volumes -/

mutual

/-- The blocks that a conversion to volumes comes to, two words behind those of the entries, are there. -/
inductive WholeFrom : Words → Prop
  | single (block : Words) (hrange : block.word 0 ≠ SND_CTL_TLVT_DB_RANGE) (hsize : 0 < block.size)
      (hdata : is_leaf_type (block.word 0) → block.word 0 ≠ SND_CTL_TLVT_DB_LINEAR → 4 ≤ block.size) :
      WholeFrom block
  | range (block : Words) (hrange : block.word 0 = SND_CTL_TLVT_DB_RANGE) (hsize : 2 ≤ block.size)
      (hentries : 6 ≤ int_index (block.word 1) → int_index (block.word 1) ≤ MAX_TLV_RANGE_SIZE →
        EntriesFrom block (int_index (block.word 1)) 2) : WholeFrom block

inductive EntriesFrom : Words → Nat → Nat → Prop
  | done (block : Words) (len pos : Nat) (hpos : ¬ pos + 4 ≤ len) : EntriesFrom block len pos
  | entry (block : Words) (len pos : Nat) (hsize : pos + 6 ≤ block.size)
      (hreport : ∀ rangemax, ∃ ok, WholeReport (block.skip (pos + 4)) rangemax ok)
      (hblock : WholeFrom (block.skip (pos + 4)))
      (hrest : EntriesFrom block len (pos + 6 + int_index (block.word (pos + 5)))) : EntriesFrom block len pos

end

theorem whole_from_dB {bad : Fault → Prop} (hends : ¬ bad .diverge) (fuel : Nat) :
    (∀ tlv rangemin rangemax db_gain xdir, WholeFrom tlv →
        (convert_from_dB_any fuel tlv rangemin rangemax db_gain xdir).Avoids bad) ∧
      ∀ tlv len pos prev_submax db rangemax db_gain xdir, EntriesFrom tlv len pos →
        (from_dB_range_loop_any fuel tlv len pos prev_submax db rangemax db_gain xdir).Avoids bad := by
  induction fuel with
  | zero =>
    exact ⟨fun _ _ _ _ _ _ => Possible.avoids_of_error hends,
      fun _ _ _ _ _ _ _ _ _ => Possible.avoids_of_error hends⟩
  | succ fuel ih =>
    obtain ⟨hconvert, hloop⟩ := ih
    constructor
    · intro tlv rangemin rangemax db_gain xdir h
      cases h with
      | single _ hsingle hsize hdata =>
        exact convert_from_dB_avoids fuel tlv (fun _ => hsize) (fun hrange => absurd hrange hsingle)
          (fun hleaf hlinear _ => hdata hleaf hlinear) _ _ _ _ fun hrange => absurd hrange hsingle
      | range _ hrange hsize hentries =>
        exact convert_from_dB_avoids fuel tlv (fun _ => by omega) (fun _ _ => hsize)
          (fun hleaf => absurd hrange (not_range_of_leaf _ hleaf)) _ _ _ _
          fun _ hlen hlimit _ => hloop _ _ _ _ _ _ _ _ (hentries hlen hlimit)
    · intro tlv len pos prev_submax db rangemax db_gain xdir h
      cases h with
      | done _ _ _ hpos =>
        rw [from_dB_range_loop_any, if_neg hpos]
        exact Possible.avoids_pure _
      | entry _ _ _ hsize hreport hblock hrest =>
        refine from_dB_range_loop_avoids fuel tlv len pos (fun _ _ => by omega) (fun _ _ => by omega) prev_submax db
          rangemax db_gain xdir (fun _ _ rangemin submax => ?_) (fun _ _ _ _ => hconvert _ _ _ _ _ hblock)
          (fun _ _ _ _ => hloop _ _ _ _ _ _ _ _ hrest)
        obtain ⟨ok, hok⟩ := hreport submax
        exact (whole_report hends fuel).1 _ _ _ ok _ hok

end Salsa.Tlv
