import Salsa.Tlv.Undefined

/-!
# Conversions on any contents

Each call and each round of a conversion by itself, with the words that it reads. From these the
conversions come to an end on any contents.
-/

namespace Salsa.Tlv

open CInt

/-! ## Single blocks -/

section Leaf

variable {bad : Fault → Prop} (hover : ¬ bad .overflow)

include hover

theorem _tlv_from_dB_minmax_avoids (hdiv : ¬ bad .divide) (rangemin rangemax db_gain xdir min max : Int)
    (have_mute : Bool) : Avoids bad (_tlv_from_dB_minmax rangemin rangemax db_gain xdir min max have_mute) := by
  unfold _tlv_from_dB_minmax
  split_ifs
  · exact avoids_long hover _
  · exact avoids_pure _
  · exact avoids_pure _
  · exact (avoids_long hover _).bind fun _ _ => (avoids_long hover _).bind fun _ _ =>
      (avoids_long hover _).bind fun _ _ => (avoids_int hover _).bind fun _ _ =>
      (avoids_int hover _).bind fun _ _ => (avoids_long hover _).bind fun _ _ =>
      (avoids_int hover _).bind fun _ _ => (avoids_divide hover hdiv _ _).bind fun _ _ => avoids_long hover _
  · exact (avoids_long hover _).bind fun _ _ => (avoids_long hover _).bind fun _ _ =>
      (avoids_long hover _).bind fun _ _ => (avoids_int hover _).bind fun _ _ =>
      (avoids_divide hover hdiv _ _).bind fun _ _ => avoids_long hover _

variable {tlv : Words} (hread : ∀ i < 4, Avoids bad (tlv.read i))

include hread

theorem tlv_to_dB_scale_avoids (rangemin rangemax volume : Int) :
    Avoids bad (tlv_to_dB_scale tlv rangemin rangemax volume) := by
  unfold tlv_to_dB_scale
  refine (hread 2 (by norm_num)).bind fun _ _ => (hread 3 (by norm_num)).bind fun _ _ =>
    (hread 3 (by norm_num)).bind fun _ _ => ?_
  dsimp only
  split_ifs
  · exact avoids_pure _
  · exact (avoids_long hover _).bind fun _ _ => (avoids_long hover _).bind fun _ _ =>
      (avoids_long hover _).bind fun _ _ => avoids_pure _

theorem tlv_to_dB_minmax_avoids (hdiv : ¬ bad .divide) (rangemin rangemax volume : Int) :
    Avoids bad (tlv_to_dB_minmax tlv rangemin rangemax volume) := by
  unfold tlv_to_dB_minmax
  refine (hread 2 (by norm_num)).bind fun _ _ => (hread 3 (by norm_num)).bind fun _ _ => ?_
  dsimp only
  split_ifs
  · refine (hread 0 (by norm_num)).bind fun _ _ => ?_
    split_ifs <;> exact avoids_pure _
  · exact avoids_pure _
  · exact (avoids_int hover _).bind fun _ _ => (avoids_long hover _).bind fun _ _ =>
      (avoids_long hover _).bind fun _ _ => (avoids_long hover _).bind fun _ _ =>
      (avoids_divide hover hdiv _ _).bind fun _ _ => (avoids_long hover _).bind fun _ _ => avoids_pure _

theorem tlv_range_dB_scale_avoids (rangemin rangemax : Int) :
    Avoids bad (tlv_range_dB_scale tlv rangemin rangemax) := by
  unfold tlv_range_dB_scale
  refine (hread 3 (by norm_num)).bind fun _ _ => ?_
  dsimp only
  split_ifs
  · exact (avoids_pure _).bind fun _ _ => (hread 2 (by norm_num)).bind fun _ _ =>
      (avoids_long hover _).bind fun _ _ => (avoids_long hover _).bind fun _ _ =>
      (avoids_long hover _).bind fun _ _ => avoids_pure _
  · rw [map_eq_pure_bind]
    exact ((hread 2 (by norm_num)).bind fun _ _ => avoids_pure _).bind fun _ _ =>
      (hread 2 (by norm_num)).bind fun _ _ =>
      (avoids_long hover _).bind fun _ _ => (avoids_long hover _).bind fun _ _ =>
      (avoids_long hover _).bind fun _ _ => avoids_pure _

theorem tlv_from_dB_scale_avoids (hdiv : ¬ bad .divide) (rangemin rangemax db_gain xdir : Int) :
    Avoids bad (tlv_from_dB_scale tlv rangemin rangemax db_gain xdir) := by
  unfold tlv_from_dB_scale
  exact (hread 2 (by norm_num)).bind fun _ _ => (hread 3 (by norm_num)).bind fun _ _ =>
    (avoids_long hover _).bind fun _ _ => (avoids_long hover _).bind fun _ _ =>
    (avoids_int hover _).bind fun _ _ => (hread 3 (by norm_num)).bind fun _ _ =>
    (_tlv_from_dB_minmax_avoids hover hdiv _ _ _ _ _ _ _).bind fun _ _ => avoids_pure _

theorem tlv_from_dB_minmax_avoids (hdiv : ¬ bad .divide) (rangemin rangemax db_gain xdir : Int) :
    Avoids bad (tlv_from_dB_minmax tlv rangemin rangemax db_gain xdir) := by
  unfold tlv_from_dB_minmax
  exact (hread 2 (by norm_num)).bind fun _ _ => (hread 3 (by norm_num)).bind fun _ _ =>
    (hread 0 (by norm_num)).bind fun _ _ =>
    (_tlv_from_dB_minmax_avoids hover hdiv _ _ _ _ _ _ _).bind fun _ _ => avoids_pure _

variable (fuel : Nat)

theorem leaf_report_avoids (rangemin rangemax : Int) (out : Option (Int × Int)) (hleaf : is_leaf_type (tlv.word 0)) :
    Avoids bad (get_dB_range (fuel + 1) tlv rangemin rangemax out) := by
  rw [get_dB_range]
  refine (hread 0 (by norm_num)).bind fun type ht => ?_
  obtain ⟨rfl, -⟩ := read_eq_ok _ _ _ ht
  rw [if_neg (not_range_of_leaf _ hleaf)]
  split_ifs
  · exact tlv_range_dB_scale_avoids hover hread _ _
  · exact (hread 2 (by norm_num)).bind fun _ _ => (hread 3 (by norm_num)).bind fun _ _ => avoids_pure _
  · exact (hread 3 (by norm_num)).bind fun _ _ => avoids_pure _
  · exact avoids_pure _

end Leaf

theorem leaf_from_dB_avoids {bad : Fault → Prop} (hover : ¬ bad .overflow) (hdiv : ¬ bad .divide) (fuel : Nat)
    (tlv : Words) (htype : Avoids bad (tlv.read 0))
    (hread : is_leaf_type (tlv.word 0) → tlv.word 0 ≠ SND_CTL_TLVT_DB_LINEAR → ∀ i < 4, Avoids bad (tlv.read i))
    (hrange : tlv.word 0 ≠ SND_CTL_TLVT_DB_RANGE) (rangemin rangemax db_gain xdir : Int) :
    Avoids bad (convert_from_dB (fuel + 1) tlv rangemin rangemax db_gain xdir) := by
  rw [convert_from_dB]
  refine htype.bind fun type ht => ?_
  obtain ⟨rfl, -⟩ := read_eq_ok _ _ _ ht
  rw [if_neg hrange]
  split_ifs with hscale hminmax
  · exact tlv_from_dB_scale_avoids hover (hread (by rw [hscale]; decide) (by rw [hscale]; decide)) hdiv _ _ _ _
  · have hleaf := hread (by rcases hminmax with h | h <;> rw [h] <;> decide)
      (by rcases hminmax with h | h <;> rw [h] <;> decide)
    exact tlv_from_dB_minmax_avoids hover hleaf hdiv _ _ _ _
  · exact avoids_pure _

/-! ## One call, one round -/

/-- The entry at word `pos` is for the volume. -/
def InEntry (tlv : Words) (pos : Nat) (volume : Int) : Prop :=
  (tlv.word pos).toInt ≤ volume ∧ volume ≤ (tlv.word (pos + 1)).toInt

section ToDB

variable {bad : Fault → Prop} (fuel : Nat) (tlv : Words)

theorem convert_to_dB_avoids (hover : ¬ bad .overflow) (hdiv : ¬ bad .divide) (htype : Avoids bad (tlv.read 0))
    (hread : is_leaf_type (tlv.word 0) → tlv.word 0 ≠ SND_CTL_TLVT_DB_LINEAR → ∀ i < 4, Avoids bad (tlv.read i))
    (hsize : tlv.word 0 = SND_CTL_TLVT_DB_RANGE → Avoids bad (tlv.read 1)) (rangemin rangemax volume : Int)
    (hloop : tlv.word 0 = SND_CTL_TLVT_DB_RANGE → int_index (tlv.word 1) ≤ MAX_TLV_RANGE_SIZE →
      Avoids bad (to_dB_range_loop fuel tlv (int_index (tlv.word 1)) 2 volume)) :
    Avoids bad (convert_to_dB (fuel + 1) tlv rangemin rangemax volume) := by
  rw [convert_to_dB]
  refine htype.bind fun type ht => ?_
  obtain ⟨rfl, -⟩ := read_eq_ok _ _ _ ht
  split_ifs with hrange hscale hminmax
  · refine (hsize hrange).bind fun size hs => ?_
    obtain ⟨rfl, -⟩ := read_eq_ok _ _ _ hs
    dsimp only
    split_ifs with hlong
    · exact avoids_pure _
    · exact hloop hrange (not_lt.mp hlong)
  · exact tlv_to_dB_scale_avoids hover (hread (by rw [hscale]; decide) (by rw [hscale]; decide)) _ _ _
  · have hleaf := hread (by rcases hminmax with h | h <;> rw [h] <;> decide)
      (by rcases hminmax with h | h <;> rw [h] <;> decide)
    exact tlv_to_dB_minmax_avoids hover hleaf hdiv _ _ _
  · exact avoids_pure _

theorem to_dB_range_loop_avoids (len pos : Nat) (volume : Int) (hmin : Avoids bad (tlv.read pos))
    (hmax : Avoids bad (tlv.read (pos + 1))) (hnext : ¬ InEntry tlv pos volume → Avoids bad (tlv.read (pos + 3)))
    (hblock : InEntry tlv pos volume → pos + 1 < tlv.size → ∀ rangemin rangemax,
      Avoids bad (convert_to_dB fuel (tlv.skip (pos + 2)) rangemin rangemax volume))
    (hloop : ¬ InEntry tlv pos volume → pos + 3 < tlv.size →
      Avoids bad (to_dB_range_loop fuel tlv len (pos + 4 + int_index (tlv.word (pos + 3))) volume)) :
    Avoids bad (to_dB_range_loop (fuel + 1) tlv len pos volume) := by
  rw [to_dB_range_loop]
  split_ifs with hpos
  · refine hmin.bind fun _ hl => hmax.bind fun _ hm => ?_
    obtain ⟨rfl, -⟩ := read_eq_ok _ _ _ hl
    obtain ⟨rfl, hsize⟩ := read_eq_ok _ _ _ hm
    dsimp only
    split_ifs with hin
    · exact hblock hin hsize _ _
    · refine (hnext hin).bind fun size hs => ?_
      obtain ⟨rfl, hmore⟩ := read_eq_ok _ _ _ hs
      rw [show pos + 3 + int_index (tlv.word (pos + 3)) + 1 = pos + 4 + int_index (tlv.word (pos + 3)) by omega]
      exact hloop hin hmore
  · exact avoids_pure _

end ToDB

section Any

open Possible (Stops not_stops_overflow not_stops_divide read_outcome lift_eq)

variable {bad : Fault → Prop} (fuel : Nat) (tlv : Words)

section Call

variable (htype : bad .read → 0 < tlv.size) (hsize : tlv.word 0 = SND_CTL_TLVT_DB_RANGE → bad .read → 2 ≤ tlv.size)

include htype hsize

theorem get_dB_range_avoids (hread : is_leaf_type (tlv.word 0) → bad .read → 4 ≤ tlv.size) (rangemin rangemax : Int)
    (out : Int × Int)
    (hloop : tlv.word 0 = SND_CTL_TLVT_DB_RANGE → int_index (tlv.word 1) ≤ MAX_TLV_RANGE_SIZE →
      (range_dB_range_loop_any fuel tlv (int_index (tlv.word 1)) 2 rangemax out).Avoids bad) :
    (get_dB_range_any (fuel + 1) tlv rangemin rangemax out).Avoids bad := by
  rw [get_dB_range_any, lift_eq]
  refine (Possible.avoids_read tlv 0 htype).bind fun type ht => ?_
  obtain ⟨rfl, -⟩ := read_outcome _ _ _ ht
  split_ifs with hrange hleaf
  · refine (Possible.avoids_read tlv 1 fun hbad => hsize hrange hbad).bind fun size hs => ?_
    obtain ⟨rfl, -⟩ := read_outcome _ _ _ hs
    dsimp only
    split_ifs with hlong
    · exact Possible.avoids_pure _
    · exact hloop hrange (not_lt.mp hlong)
  · refine (Possible.avoids_of (leaf_report_avoids (not_stops_overflow bad) (fun i hi => ?_) fuel _ _ _ hleaf)).bind
      fun _ _ => Possible.avoids_pure _
    exact avoids_read tlv i fun hbad => lt_of_lt_of_le hi (hread hleaf hbad.1)
  · exact Possible.avoids_pure _

theorem convert_from_dB_avoids
    (hread : is_leaf_type (tlv.word 0) → tlv.word 0 ≠ SND_CTL_TLVT_DB_LINEAR → bad .read → 4 ≤ tlv.size)
    (rangemin rangemax db_gain xdir : Int)
    (hloop : tlv.word 0 = SND_CTL_TLVT_DB_RANGE → 6 ≤ int_index (tlv.word 1) →
      int_index (tlv.word 1) ≤ MAX_TLV_RANGE_SIZE → ∀ db,
      (from_dB_range_loop_any fuel tlv (int_index (tlv.word 1)) 2 0 db rangemax db_gain xdir).Avoids bad) :
    (convert_from_dB_any (fuel + 1) tlv rangemin rangemax db_gain xdir).Avoids bad := by
  rw [convert_from_dB_any, lift_eq]
  refine (Possible.avoids_read tlv 0 htype).bind fun type ht => ?_
  obtain ⟨rfl, -⟩ := read_outcome _ _ _ ht
  split_ifs with hrange
  · refine (Possible.avoids_read tlv 1 fun hbad => hsize hrange hbad).bind fun size hs => ?_
    obtain ⟨rfl, -⟩ := read_outcome _ _ _ hs
    dsimp only
    split_ifs with hlength
    · exact Possible.avoids_pure _
    · rw [not_or, not_lt, not_lt] at hlength
      exact Possible.avoids_any.bind fun db _ => hloop hrange hlength.1 hlength.2 db
  · refine Possible.avoids_of (leaf_from_dB_avoids (not_stops_overflow bad) (not_stops_divide bad) fuel tlv ?_
      (fun hleaf hlinear i hi => ?_) hrange _ _ _ _)
    · exact avoids_read tlv 0 fun hbad => htype hbad.1
    · exact avoids_read tlv i fun hbad => lt_of_lt_of_le hi (hread hleaf hlinear hbad.1)

end Call

section Round

variable (len pos : Nat) (hentry : pos + 4 ≤ len → bad .read → pos + 1 < tlv.size)

include hentry

theorem range_dB_range_loop_avoids (rangemax : Int) (out : Int × Int)
    (hblock : pos + 4 ≤ len → pos + 1 < tlv.size → ∀ sub, (get_dB_range_any fuel (tlv.skip (pos + 2))
      (tlv.word pos).toInt (min rangemax (tlv.word (pos + 1)).toInt) sub).Avoids bad)
    (hgo : pos + 4 ≤ len → (tlv.word (pos + 1)).toInt < rangemax →
      (∃ sub err report, get_dB_range_any fuel (tlv.skip (pos + 2)) (tlv.word pos).toInt
        (min rangemax (tlv.word (pos + 1)).toInt) sub (.ok (err, report)) ∧ 0 ≤ err) →
      (bad .read → pos + 3 < tlv.size) ∧ (pos + 3 < tlv.size → ∀ merged, (range_dB_range_loop_any fuel tlv len
        (pos + 4 + int_index (tlv.word (pos + 3))) rangemax merged).Avoids bad)) :
    (range_dB_range_loop_any (fuel + 1) tlv len pos rangemax out).Avoids bad := by
  by_cases hpos : pos + 4 ≤ len
  · rw [range_dB_range_loop_any, if_pos hpos]
    refine (Possible.avoids_read tlv pos fun hbad => by have := hentry hpos hbad; omega).bind fun _ hl => ?_
    refine (Possible.avoids_read tlv (pos + 1) fun hbad => hentry hpos hbad).bind fun _ hm => ?_
    obtain ⟨rfl, -⟩ := read_outcome _ _ _ hl
    obtain ⟨rfl, hsize⟩ := read_outcome _ _ _ hm
    dsimp only
    rw [capped]
    refine Possible.avoids_any.bind fun sub _ => (hblock hpos hsize sub).bind fun result hreport => ?_
    obtain ⟨err, rmin, rmax⟩ := result
    dsimp only
    by_cases herr : err < 0
    · rw [if_pos herr]
      exact Possible.avoids_pure _
    rw [if_neg herr]
    generalize (if pos + 2 > 4 then _ else _) = merged
    by_cases hlast : rangemax = min rangemax (tlv.word (pos + 1)).toInt
    · rw [if_pos hlast]
      exact Possible.avoids_pure _
    · rw [if_neg hlast]
      obtain ⟨hnext, hloop⟩ := hgo hpos (by omega) ⟨sub, err, _, hreport, not_lt.mp herr⟩
      refine (Possible.avoids_read tlv (pos + 3) hnext).bind fun size hs => ?_
      obtain ⟨rfl, hmore⟩ := read_outcome _ _ _ hs
      rw [show pos + 3 + int_index (tlv.word (pos + 3)) + 1 = pos + 4 + int_index (tlv.word (pos + 3)) by omega]
      exact hloop hmore merged
  · rw [range_dB_range_loop_any, if_neg hpos]
    exact Possible.avoids_pure _

theorem from_dB_range_loop_avoids (hnext : pos + 4 ≤ len → bad .read → pos + 5 < tlv.size) (prev_submax : Int)
    (db : Int × Int) (rangemax db_gain xdir : Int)
    (hreport : pos + 4 ≤ len → pos + 1 < tlv.size → ∀ rangemin rangemax,
      (get_dB_range_any fuel (tlv.skip (pos + 4)) rangemin rangemax db).Avoids bad)
    (hblock : pos + 4 ≤ len → pos + 1 < tlv.size → ∀ rangemin rangemax,
      (convert_from_dB_any fuel (tlv.skip (pos + 4)) rangemin rangemax db_gain xdir).Avoids bad)
    (hloop : pos + 4 ≤ len → pos + 5 < tlv.size → ∀ prev_submax report,
      (from_dB_range_loop_any fuel tlv len (pos + 6 + int_index (tlv.word (pos + 5))) prev_submax report
        rangemax db_gain xdir).Avoids bad) :
    (from_dB_range_loop_any (fuel + 1) tlv len pos prev_submax db rangemax db_gain xdir).Avoids bad := by
  by_cases hpos : pos + 4 ≤ len
  · rw [from_dB_range_loop_any, if_pos hpos]
    refine (Possible.avoids_read tlv pos fun hbad => by have := hentry hpos hbad; omega).bind fun _ _ => ?_
    refine (Possible.avoids_read tlv (pos + 1) fun hbad => hentry hpos hbad).bind fun _ hm => ?_
    have hsize := (read_outcome _ _ _ hm).2
    refine (hreport hpos hsize _ _).bind fun report _ => ?_
    obtain ⟨err, dbmin, dbmax⟩ := report
    dsimp only
    generalize (if rangemax < _ then rangemax else _) = submax
    split_ifs
    · exact hblock hpos hsize _ _
    · exact Possible.avoids_pure _
    · exact Possible.avoids_pure _
    · exact Possible.avoids_pure _
    · refine (Possible.avoids_read tlv (pos + 2 + 3) fun hbad => hnext hpos hbad).bind fun size hs => ?_
      obtain ⟨rfl, hmore⟩ := read_outcome _ _ _ hs
      have hstep : pos + 6 + int_index (tlv.word (pos + 5)) = pos + 2 + int_index (tlv.word (pos + 5)) + 4 := by
        omega
      rw [hstep] at hloop
      exact hloop hpos hmore _ _
  · rw [from_dB_range_loop_any, if_neg hpos]
    exact Possible.avoids_pure _

end Round

end Any

/-! ## The runs come to an end -/

theorem skip_size (tlv : Words) (n : Nat) : (tlv.skip n).size = tlv.size - n := rfl

/-- Each entry takes four words, and each block in a block is two words shorter. -/
theorem to_dB_ends (fuel : Nat) :
    (∀ tlv rangemin rangemax volume, tlv.size + 2 ≤ fuel →
        Avoids (· = .diverge) (convert_to_dB fuel tlv rangemin rangemax volume)) ∧
      ∀ tlv len pos volume, tlv.size - pos + 1 ≤ fuel →
        Avoids (· = .diverge) (to_dB_range_loop fuel tlv len pos volume) := by
  have hread : ∀ (tlv : Words) i, Avoids (· = .diverge) (tlv.read i) := fun tlv i =>
    avoids_read tlv i nofun
  induction fuel with
  | zero => exact ⟨fun _ _ _ _ h => by omega, fun _ _ _ _ h => by omega⟩
  | succ fuel ih =>
    obtain ⟨hconvert, hloop⟩ := ih
    constructor
    · intro tlv rangemin rangemax volume hfuel
      exact convert_to_dB_avoids fuel tlv (by decide) (by decide) (hread tlv 0) (fun _ _ i _ => hread tlv i)
        (fun _ => hread tlv 1) _ _ _ fun _ _ => hloop _ _ _ _ (by omega)
    · intro tlv len pos volume hfuel
      refine to_dB_range_loop_avoids fuel tlv len pos volume (hread tlv pos) (hread tlv (pos + 1))
        (fun _ => hread tlv (pos + 3)) (fun _ hsize _ _ => hconvert _ _ _ _ ?_)
        (fun _ hsize => hloop _ _ _ _ (by omega))
      rw [skip_size]
      omega

theorem get_dB_range_ends (fuel : Nat) :
    (∀ tlv rangemin rangemax out, tlv.size + 2 ≤ fuel →
        (get_dB_range_any fuel tlv rangemin rangemax out).Avoids (· = .diverge)) ∧
      ∀ tlv len pos rangemax out, tlv.size - pos + 1 ≤ fuel →
        (range_dB_range_loop_any fuel tlv len pos rangemax out).Avoids (· = .diverge) := by
  induction fuel with
  | zero => exact ⟨fun _ _ _ _ h => by omega, fun _ _ _ _ _ h => by omega⟩
  | succ fuel ih =>
    obtain ⟨hreport, hloop⟩ := ih
    constructor
    · intro tlv rangemin rangemax out hfuel
      exact get_dB_range_avoids fuel tlv nofun (fun _ => nofun) (fun _ => nofun) _ _ _
        fun _ _ => hloop _ _ _ _ _ (by omega)
    · intro tlv len pos rangemax out hfuel
      refine range_dB_range_loop_avoids fuel tlv len pos (fun _ => nofun) rangemax out
        (fun _ hsize _ => hreport _ _ _ _ ?_) (fun _ _ _ => ⟨nofun, fun hsize _ => hloop _ _ _ _ _ ?_⟩)
      · rw [skip_size]
        omega
      · omega

theorem from_dB_ends (fuel : Nat) :
    (∀ tlv rangemin rangemax db_gain xdir, tlv.size + 2 ≤ fuel →
        (convert_from_dB_any fuel tlv rangemin rangemax db_gain xdir).Avoids (· = .diverge)) ∧
      ∀ tlv len pos prev_submax db rangemax db_gain xdir, tlv.size - pos + 1 ≤ fuel →
        (from_dB_range_loop_any fuel tlv len pos prev_submax db rangemax db_gain xdir).Avoids (· = .diverge) := by
  induction fuel with
  | zero => exact ⟨fun _ _ _ _ _ h => by omega, fun _ _ _ _ _ _ _ _ h => by omega⟩
  | succ fuel ih =>
    obtain ⟨hconvert, hloop⟩ := ih
    constructor
    · intro tlv rangemin rangemax db_gain xdir hfuel
      exact convert_from_dB_avoids fuel tlv nofun (fun _ => nofun) (fun _ _ => nofun)
        _ _ _ _ fun _ _ _ _ => hloop _ _ _ _ _ _ _ _ (by omega)
    · intro tlv len pos prev_submax db rangemax db_gain xdir hfuel
      refine from_dB_range_loop_avoids fuel tlv len pos (fun _ => nofun) (fun _ => nofun) prev_submax db
        rangemax db_gain xdir (fun _ hsize _ _ => (get_dB_range_ends fuel).1 _ _ _ _ ?_)
        (fun _ hsize _ _ => hconvert _ _ _ _ _ ?_) (fun _ hsize _ _ => hloop _ _ _ _ _ _ _ _ (by omega)) <;>
        · rw [skip_size]
          omega

end Salsa.Tlv
