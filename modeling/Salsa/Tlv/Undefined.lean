import Salsa.Lib.Possible
import Salsa.Tlv.Outcomes

/-!
# Conversions with undefined values

The reports and the conversions to volumes once more, with every value that a variable may hold
which nothing was written to, and that an operation may give whose result C does not define.
-/

namespace Salsa.Tlv

open CInt

mutual

/-- `get_dB_range`; `out` is what `*min` and `*max` hold. -/
def get_dB_range_any : Nat → Words → Int → Int → Int × Int → Possible (Int × Int × Int)
  | 0, _, _, _, _ => .of (.error .diverge)
  | fuel + 1, tlv, rangemin, rangemax, out => do
    let type ← tlv.read 0
    if type = SND_CTL_TLVT_DB_RANGE then
      let len := int_index (← tlv.read 1)
      if len > MAX_TLV_RANGE_SIZE then return (-EINVAL, out)
      else range_dB_range_loop_any fuel tlv len 2 rangemax out
    else if is_leaf_type type then
      let (_, report) ← get_dB_range (fuel + 1) tlv rangemin rangemax none
      return (0, report.getD out)
    else return (-EINVAL, out)

def range_dB_range_loop_any : Nat → Words → Nat → Nat → Int → Int × Int → Possible (Int × Int × Int)
  | 0, _, _, _, _, _ => .of (.error .diverge)
  | fuel + 1, tlv, len, pos, rangemax, out =>
    if pos + 4 ≤ len then do
      let submin := (← tlv.read pos).toInt
      let submax := (← tlv.read (pos + 1)).toInt
      let submax := if rangemax < submax then rangemax else submax
      let sub ← .any
      let (err, rmin, rmax) ← get_dB_range_any fuel (tlv.skip (pos + 2)) submin submax sub
      if err < 0 then return (err, out)
      else
        let out := if pos + 2 > 4 then (if rmin < out.1 then rmin else out.1, if rmax > out.2 then rmax else out.2)
          else (rmin, rmax)
        if rangemax = submax then return (0, out)
        else range_dB_range_loop_any fuel tlv len (pos + 3 + int_index (← tlv.read (pos + 3)) + 1) rangemax out
    else return (0, out)

end

def snd_tlv_get_dB_range_any (tlv : Words) (rangemin rangemax : Int) (out : Int × Int) : Possible (Int × Int × Int) :=
  get_dB_range_any (tlv.size + 2) tlv rangemin rangemax out

mutual

def convert_from_dB_any : Nat → Words → Int → Int → Int → Int → Possible (Int × Option Int)
  | 0, _, _, _, _, _ => .of (.error .diverge)
  | fuel + 1, tlv, rangemin, rangemax, db_gain, xdir => do
    let type ← tlv.read 0
    if type = SND_CTL_TLVT_DB_RANGE then
      let len := int_index (← tlv.read 1)
      if len < 6 ∨ len > MAX_TLV_RANGE_SIZE then return (-EINVAL, none)
      else
        let db ← .any
        from_dB_range_loop_any fuel tlv len 2 0 db rangemax db_gain xdir
    else convert_from_dB (fuel + 1) tlv rangemin rangemax db_gain xdir

def from_dB_range_loop_any : Nat → Words → Nat → Nat → Int → Int × Int → Int → Int → Int → Possible (Int × Option Int)
  | 0, _, _, _, _, _, _, _, _ => .of (.error .diverge)
  | fuel + 1, tlv, len, pos, prev_submax, db, rangemax, db_gain, xdir =>
    if pos + 4 ≤ len then do
      let submin := (← tlv.read pos).toInt
      let submax := (← tlv.read (pos + 1)).toInt
      let pos := pos + 2
      let submax := if rangemax < submax then rangemax else submax
      let (err, dbmin, dbmax) ← get_dB_range_any fuel (tlv.skip (pos + 2)) submin submax db
      if err = 0 ∧ db_gain ≥ dbmin ∧ db_gain ≤ dbmax then
        convert_from_dB_any fuel (tlv.skip (pos + 2)) submin submax db_gain xdir
      else if db_gain < dbmin then return (0, some (if xdir > 0 ∨ pos = 2 then submin else prev_submax))
      else if rangemax = submax then return (0, some submax)
      else
        from_dB_range_loop_any fuel tlv len (pos + int_index (← tlv.read (pos + 3)) + 4) submax (dbmin, dbmax)
          rangemax db_gain xdir
    else return (0, some prev_submax)

end

def snd_tlv_convert_from_dB_any (tlv : Words) (rangemin rangemax db_gain xdir : Int) : Possible (Int × Option Int) :=
  convert_from_dB_any (tlv.size + 2) tlv rangemin rangemax db_gain xdir

/-! ## The model's outcomes are among them -/

open Possible

/-- The same status, and the same values where any were written. -/
def SameReport (r : Int × Option (Int × Int)) (r' : Int × Int × Int) : Prop := r.1 = r'.1 ∧ ∀ d ∈ r.2, d = r'.2

theorem get_dB_range_leaf_out (fuel : Nat) (tlv : Words) (rangemin rangemax : Int) (out : Option (Int × Int))
    (hleaf : is_leaf_type (tlv.word 0)) :
    get_dB_range (fuel + 1) tlv rangemin rangemax out = get_dB_range (fuel + 1) tlv rangemin rangemax none := by
  have hrange := not_range_of_leaf _ hleaf
  simp only [get_dB_range]
  rcases read_cases tlv 0 with h0 | h0
  · rw [h0, ok_bind, ok_bind, if_neg hrange, if_neg hrange]
    split_ifs with hscale hminmax hmute
    · rfl
    · rfl
    · rfl
    · rw [not_or] at hminmax
      simp [is_leaf_type, hscale, hminmax, hmute] at hleaf
  · rw [h0]
    rfl

theorem get_dB_range_any_leaf (fuel : Nat) (tlv : Words) (rangemin rangemax : Int) (out : Int × Int)
    (hleaf : is_leaf_type (tlv.word 0)) :
    get_dB_range_any (fuel + 1) tlv rangemin rangemax out =
      of (get_dB_range (fuel + 1) tlv rangemin rangemax none) >>= fun r => pure (0, r.2.getD out) := by
  rw [get_dB_range_any]
  rcases read_cases tlv 0 with h0 | h0
  · rw [h0, lift_eq, of_ok_bind, if_neg (not_range_of_leaf _ hleaf), if_pos hleaf]
    rfl
  · rw [h0, lift_eq, of_error_bind not_leavesOpen_read, get_dB_range, h0, error_bind,
      of_error_bind not_leavesOpen_read]

theorem get_dB_range_any_unknown (fuel : Nat) (tlv : Words) (rangemin rangemax : Int) (out : Int × Int)
    (hsize : 0 < tlv.size) (hleaf : ¬ is_leaf_type (tlv.word 0)) (hrange : tlv.word 0 ≠ SND_CTL_TLVT_DB_RANGE) :
    get_dB_range_any (fuel + 1) tlv rangemin rangemax out = pure (-EINVAL, out) := by
  rw [get_dB_range_any, tlv.read_ok 0 hsize, lift_eq, of_ok_bind, if_neg hrange, if_neg hleaf]

theorem get_dB_range_any_range (fuel : Nat) (tlv : Words) (rangemin rangemax : Int) (out : Int × Int)
    (hsize : 2 ≤ tlv.size) (hrange : tlv.word 0 = SND_CTL_TLVT_DB_RANGE) :
    get_dB_range_any (fuel + 1) tlv rangemin rangemax out =
      if int_index (tlv.word 1) > MAX_TLV_RANGE_SIZE then pure (-EINVAL, out)
      else range_dB_range_loop_any fuel tlv (int_index (tlv.word 1)) 2 rangemax out := by
  rw [get_dB_range_any, tlv.read_ok 0 (by omega), lift_eq, of_ok_bind, if_pos hrange, tlv.read_ok 1 (by omega), lift_eq,
    of_ok_bind]

/-- What a round does with the report on its entry. -/
def after_report (fuel : Nat) (tlv : Words) (len pos : Nat) (rangemax : Int) (out : Int × Int) (err rmin rmax : Int) :
    Possible (Int × Int × Int) :=
  if err < 0 then pure (err, out)
  else
    let out := if pos + 2 > 4 then (if rmin < out.1 then rmin else out.1, if rmax > out.2 then rmax else out.2)
      else (rmin, rmax)
    if rangemax ≤ (tlv.word (pos + 1)).toInt then pure (0, out)
    else of (tlv.read (pos + 3)) >>= fun size =>
      range_dB_range_loop_any fuel tlv len (pos + 3 + int_index size + 1) rangemax out

theorem range_dB_range_loop_any_round (fuel : Nat) (tlv : Words) (len pos : Nat) (rangemax : Int) (out : Int × Int)
    (hpos : pos + 4 ≤ len) (hsize : pos + 1 < tlv.size) :
    range_dB_range_loop_any (fuel + 1) tlv len pos rangemax out = any >>= fun sub =>
      get_dB_range_any fuel (tlv.skip (pos + 2)) (tlv.word pos).toInt (min rangemax (tlv.word (pos + 1)).toInt) sub >>=
        fun report => after_report fuel tlv len pos rangemax out report.1 report.2.1 report.2.2 := by
  rw [range_dB_range_loop_any, if_pos hpos, tlv.read_ok pos (by omega), lift_eq, of_ok_bind,
    tlv.read_ok (pos + 1) hsize, lift_eq, of_ok_bind]
  dsimp only
  rw [capped]
  congr
  funext sub
  congr
  funext report
  rw [after_report]
  have hlast : rangemax = min rangemax (tlv.word (pos + 1)).toInt ↔ rangemax ≤ (tlv.word (pos + 1)).toInt := by omega
  simp only [hlast]
  rfl

theorem after_report_fails (fuel : Nat) (tlv : Words) (len pos : Nat) (rangemax : Int) (out : Int × Int)
    (err rmin rmax : Int) (herr : err < 0) :
    after_report fuel tlv len pos rangemax out err rmin rmax = pure (err, out) :=
  if_pos herr

theorem after_report_last (fuel : Nat) (tlv : Words) (len pos : Nat) (rangemax : Int) (out : Int × Int)
    (err rmin rmax : Int) (herr : ¬ err < 0) (hlast : rangemax ≤ (tlv.word (pos + 1)).toInt) :
    ∃ merged, after_report fuel tlv len pos rangemax out err rmin rmax = pure (0, merged) := by
  rw [after_report, if_neg herr]
  exact ⟨_, if_pos hlast⟩

theorem after_report_next (fuel : Nat) (tlv : Words) (len pos : Nat) (rangemax : Int) (out : Int × Int)
    (err rmin rmax : Int) (herr : ¬ err < 0) (hnext : (tlv.word (pos + 1)).toInt < rangemax) :
    ∃ merged, after_report fuel tlv len pos rangemax out err rmin rmax = of (tlv.read (pos + 3)) >>= fun size =>
      range_dB_range_loop_any fuel tlv len (pos + 4 + int_index size) rangemax merged := by
  have hstep : ∀ size, pos + 3 + int_index size + 1 = pos + 4 + int_index size := fun size => by omega
  rw [after_report, if_neg herr]
  simp only [hstep]
  exact ⟨_, if_neg (not_le.mpr hnext)⟩

/-- With so much fuel a report is one of those for any contents. -/
def ReportCovered (fuel : Nat) : Prop :=
  ∀ tlv rangemin rangemax out out', (∀ d ∈ out, d = out') → Covers SameReport
    (get_dB_range fuel tlv rangemin rangemax out) (get_dB_range_any fuel tlv rangemin rangemax out')

def LoopCovered (fuel : Nat) : Prop :=
  ∀ tlv len pos rangemax out out', (∀ d ∈ out, d = out') → Covers SameReport
    (range_dB_range_loop fuel tlv len pos rangemax out) (range_dB_range_loop_any fuel tlv len pos rangemax out')

theorem leaf_report_covered (fuel : Nat) (tlv : Words) (rangemin rangemax : Int) (out : Option (Int × Int))
    (out' : Int × Int) (hleaf : is_leaf_type (tlv.word 0)) :
    Covers SameReport (get_dB_range (fuel + 1) tlv rangemin rangemax out)
      (get_dB_range_any (fuel + 1) tlv rangemin rangemax out') := by
  have hrange := not_range_of_leaf _ hleaf
  rw [get_dB_range_leaf_out _ _ _ _ _ hleaf, get_dB_range_any_leaf _ _ _ _ _ hleaf]
  cases hmodel : get_dB_range (fuel + 1) tlv rangemin rangemax none with
  | error fault =>
    by_cases hopen : fault.LeavesOpen
    · exact covers_open hopen _
    · rw [of_error_bind hopen]
      exact covers_closed hopen
  | ok r =>
    rcases get_dB_range_leaf _ _ _ _ _ _ hrange hmodel with ⟨-, -, rfl⟩ | ⟨hnot, -⟩
    · rw [of_ok_bind]
      exact covers_pure ⟨rfl, by simp⟩
    · exact absurd hleaf hnot

theorem report_covered {fuel : Nat} (hloop : LoopCovered fuel) : ReportCovered (fuel + 1) := by
  intro tlv rangemin rangemax out out' hout
  by_cases hleaf : is_leaf_type (tlv.word 0)
  · exact leaf_report_covered fuel tlv rangemin rangemax out out' hleaf
  · rw [get_dB_range, get_dB_range_any]
    rcases read_cases tlv 0 with h0 | h0
    · rw [h0, ok_bind, lift_eq, of_ok_bind]
      by_cases hrange : tlv.word 0 = SND_CTL_TLVT_DB_RANGE
      · rw [if_pos hrange, if_pos hrange]
        refine (covers_of _).bind ?_
        rintro size _ rfl
        dsimp only
        split_ifs
        · exact covers_pure ⟨rfl, hout⟩
        · exact hloop _ _ _ _ _ _ hout
      · rw [if_neg hrange, if_neg hrange, if_neg hleaf]
        simp only [is_leaf_type, Bool.or_eq_true, beq_iff_eq, not_or] at hleaf
        obtain ⟨⟨⟨hscale, hlinear⟩, hminmax⟩, hmute⟩ := hleaf
        rw [if_neg hscale, if_neg (not_or.mpr ⟨hminmax, hlinear⟩), if_neg hmute]
        exact covers_pure ⟨rfl, hout⟩
    · rw [h0, error_bind, lift_eq, of_error_bind not_leavesOpen_read]
      exact covers_closed not_leavesOpen_read

/-- What is left of a round behind the merge. -/
theorem merged_covered {fuel : Nat} (hloop : LoopCovered fuel) (tlv : Words) (len pos : Nat) (rangemax submax : Int)
    (merged : Int × Int) :
    Covers SameReport
      (if rangemax = submax then pure (0, some merged) else do
        let size ← tlv.read (pos + 3)
        range_dB_range_loop fuel tlv len (pos + 3 + int_index size + 1) rangemax (some merged))
      (if rangemax = submax then pure (0, merged) else do
        let size ← of (tlv.read (pos + 3))
        range_dB_range_loop_any fuel tlv len (pos + 3 + int_index size + 1) rangemax merged) := by
  split_ifs
  · exact covers_pure ⟨rfl, by simp⟩
  · refine (covers_of _).bind ?_
    rintro size _ rfl
    exact hloop _ _ _ _ _ _ (by simp)

theorem loop_covered {fuel : Nat} (hreport : ReportCovered fuel) (hloop : LoopCovered fuel) :
    LoopCovered (fuel + 1) := by
  intro tlv len pos rangemax out out' hout
  rw [range_dB_range_loop, range_dB_range_loop_any]
  by_cases hpos : pos + 4 ≤ len
  · rw [if_pos hpos, if_pos hpos]
    refine (covers_of _).bind ?_
    rintro submin _ rfl
    refine (covers_of _).bind ?_
    rintro submax _ rfl
    refine covers_any (0, 0) ((hreport _ _ _ _ _ (by rintro d ⟨⟩)).bind ?_)
    rintro ⟨err, sub⟩ ⟨_, rmin, rmax⟩ ⟨rfl, hsub⟩
    dsimp only at hsub ⊢
    generalize (if rangemax < submax.toInt then rangemax else submax.toInt) = submax
    by_cases herr : err < 0
    · rw [if_pos herr, if_pos herr]
      exact covers_pure ⟨rfl, hout⟩
    rw [if_neg herr, if_neg herr]
    cases sub with
    | none => exact covers_open (Or.inl rfl) _
    | some sub =>
      cases hsub sub rfl
      dsimp only
      by_cases hfirst : pos + 2 > 4
      · rw [if_pos hfirst, if_pos hfirst]
        cases out with
        | none => exact covers_open (Or.inl rfl) _
        | some out =>
          cases hout out rfl
          exact merged_covered hloop ..
      · rw [if_neg hfirst, if_neg hfirst]
        exact merged_covered hloop ..
  · rw [if_neg hpos, if_neg hpos]
    exact covers_pure ⟨rfl, hout⟩

theorem get_dB_range_covered (fuel : Nat) : ReportCovered fuel ∧ LoopCovered fuel := by
  induction fuel with
  | zero =>
    exact ⟨fun _ _ _ _ _ _ => covers_closed not_leavesOpen_diverge,
      fun _ _ _ _ _ _ _ => covers_closed not_leavesOpen_diverge⟩
  | succ fuel ih => exact ⟨report_covered ih.2, loop_covered ih.1 ih.2⟩

/-- With so much fuel a conversion is one of those for any contents. -/
def ConvertCovered (fuel : Nat) : Prop :=
  ∀ tlv rangemin rangemax db_gain xdir, Covers Eq (convert_from_dB fuel tlv rangemin rangemax db_gain xdir)
    (convert_from_dB_any fuel tlv rangemin rangemax db_gain xdir)

def FromLoopCovered (fuel : Nat) : Prop :=
  ∀ tlv len pos prev_submax db db' rangemax db_gain xdir, (∀ d ∈ db, d = db') → Covers Eq
    (from_dB_range_loop fuel tlv len pos prev_submax db rangemax db_gain xdir)
    (from_dB_range_loop_any fuel tlv len pos prev_submax db' rangemax db_gain xdir)

theorem convert_covered {fuel : Nat} (hloop : FromLoopCovered fuel) : ConvertCovered (fuel + 1) := by
  intro tlv rangemin rangemax db_gain xdir
  rw [convert_from_dB_any, lift_eq]
  rcases read_cases tlv 0 with h0 | h0
  · rw [h0, of_ok_bind]
    by_cases hrange : tlv.word 0 = SND_CTL_TLVT_DB_RANGE
    · rw [if_pos hrange, convert_from_dB, h0, ok_bind, if_pos hrange]
      refine (covers_of _).bind ?_
      rintro size _ rfl
      dsimp only
      split_ifs
      · exact covers_pure rfl
      · exact covers_any (0, 0) (hloop _ _ _ _ _ _ _ _ _ (by simp))
    · rw [if_neg hrange]
      exact covers_of _
  · rw [h0, of_error_bind not_leavesOpen_read, convert_from_dB, h0, error_bind]
    exact covers_closed not_leavesOpen_read

theorem from_loop_covered {fuel : Nat} (hconvert : ConvertCovered fuel) (hloop : FromLoopCovered fuel) :
    FromLoopCovered (fuel + 1) := by
  intro tlv len pos prev_submax db db' rangemax db_gain xdir hdb
  rw [from_dB_range_loop, from_dB_range_loop_any]
  by_cases hpos : pos + 4 ≤ len
  · rw [if_pos hpos, if_pos hpos]
    refine (covers_of _).bind ?_
    rintro submin _ rfl
    refine (covers_of _).bind ?_
    rintro submax _ rfl
    refine ((get_dB_range_covered fuel).1 _ _ _ _ _ hdb).bind ?_
    rintro ⟨err, report⟩ ⟨_, dbmin, dbmax⟩ ⟨rfl, hreport⟩
    dsimp only at hreport ⊢
    cases report with
    | none => exact covers_open (Or.inl rfl) _
    | some report =>
      cases hreport report rfl
      dsimp only
      generalize (if rangemax < submax.toInt then rangemax else submax.toInt) = submax
      generalize (if xdir > 0 ∨ pos + 2 = 2 then submin.toInt else prev_submax) = below
      split_ifs
      · exact hconvert _ _ _ _ _
      · exact covers_pure rfl
      · exact covers_pure rfl
      · refine (covers_of _).bind ?_
        rintro size _ rfl
        exact hloop _ _ _ _ _ _ _ _ _ (by simp)
  · rw [if_neg hpos, if_neg hpos]
    exact covers_pure rfl

theorem convert_from_dB_covered (fuel : Nat) : ConvertCovered fuel ∧ FromLoopCovered fuel := by
  induction fuel with
  | zero =>
    exact ⟨fun _ _ _ _ _ => covers_closed not_leavesOpen_diverge,
      fun _ _ _ _ _ _ _ _ _ _ => covers_closed not_leavesOpen_diverge⟩
  | succ fuel ih => exact ⟨convert_covered ih.2, from_loop_covered ih.1 ih.2⟩

end Salsa.Tlv
