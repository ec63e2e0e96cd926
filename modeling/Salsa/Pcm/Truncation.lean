import Salsa.Pcm.Frames

/-!
# Frame counts that are cut off

What a call does with a frame count that has no 32 bits, or an end that wraps around.
-/

namespace Salsa.Pcm

open HwParams Ends

theorem of_ptr_eq (set : Val → Option (Int × SndPcmHwParams × Val)) (v : Frames) (ret : Int) (q : SndPcmHwParams)
    (w : Val) (h : set v.cut = some (ret, q, w)) : of_ptr (define_set64 set v) = some (ret, q, [widened w]) := by
  unfold of_ptr define_set64
  rw [h, Option.map_some, Option.map_some]

theorem widened_inj (v w : Val) (h : widened v = widened w) : v = w := by
  obtain ⟨val, dir⟩ := v
  obtain ⟨val', dir'⟩ := w
  unfold widened at h
  rw [Frames.mk.injEq] at h
  dsimp only at h
  have hval : val = val' := by
    apply BitVec.eq_of_toNat_eq
    have hnat := congrArg BitVec.toNat h.1
    rwa [BitVec.toNat_setWidth, BitVec.toNat_setWidth, Nat.mod_eq_of_lt (by omega), Nat.mod_eq_of_lt (by omega)]
      at hnat
  rw [hval, h.2]

/-- A frame count is read back as it was exactly if it has 32 bits. -/
theorem widened_cut_val (v : Frames) : (widened v.cut).val = v.val ↔ Short v.val := by
  constructor
  · intro heq
    by_contra hlong
    exact widened_ne v v.cut hlong heq
  · intro hshort
    rw [widened_cut v hshort]

/-! ## What is asked for and what there is -/

theorem denote_le (i : SndInterval) : denote i ⊆ {x | x ≤ 4294967295} := by
  rintro x ⟨-, hmax, -⟩
  have hle := le_of_mem_below _ _ _ hmax
  have hlt : num i.max ≤ 4294967295 := by
    unfold num
    have hmax := i.max.isLt
    exact_mod_cast Nat.le_of_lt_succ hmax
  exact le_trans hle hlt

theorem count_long (val : Uframes) (h : ¬ Short val) : 4294967296 ≤ count val := by
  unfold Short at h
  unfold count
  exact_mod_cast not_lt.mp h

theorem beyond_min (v : Frames) (h : ¬ MinShort v.val v.cut.dirOr0) :
    (FramesRequest.set_min v).allowed ⊆ {x | 4294967295 < x} := by
  intro x hx
  have hdir : v.dir.getD 0 = v.cut.dirOr0 := rfl
  unfold FramesRequest.allowed at hx
  rw [Set.mem_ofPred_eq, hdir] at hx
  rw [Set.mem_ofPred_eq]
  by_cases hshort : Short v.val
  · obtain ⟨hlast, hpos⟩ : v.val.toNat = 4294967295 ∧ v.cut.dirOr0 > 0 := by
      by_contra hnot
      exact h ⟨hshort, hnot⟩
    rw [if_neg hpos.ne', if_pos hpos] at hx
    unfold count at hx
    rw [hlast] at hx
    exact_mod_cast hx
  · have hcount := count_long v.val hshort
    split_ifs at hx
    · linarith
    · linarith
    · linarith

theorem beyond_set (val : Uframes) (dir : Int) (h : ¬ MinShort val dir) :
    (FramesRequest.set val dir).allowed ⊆ {x | 4294967295 < x} := by
  intro x hx
  unfold FramesRequest.allowed at hx
  rw [Set.mem_ofPred_eq] at hx ⊢
  by_cases hshort : Short val
  · obtain ⟨hlast, hpos⟩ : val.toNat = 4294967295 ∧ dir > 0 := by
      by_contra hnot
      exact h ⟨hshort, hnot⟩
    rw [if_neg hpos.ne', if_pos hpos] at hx
    unfold count at hx
    rw [hlast] at hx
    exact_mod_cast hx.1
  · have hcount := count_long val hshort
    split_ifs at hx
    · linarith
    · linarith [hx.1]
    · linarith [hx.1]

/-- A part of what is asked for, of which there is nothing in 32 bits. -/
theorem subset_beyond_iff (i : SndInterval) (allowed : Set ℚ) (h : allowed ⊆ {x | 4294967295 < x}) :
    denote i ⊆ allowed ↔ denote i = ∅ := by
  constructor
  · intro hsub
    apply Set.eq_empty_of_forall_notMem
    exact fun x hx => absurd (show (4294967295 : ℚ) < x from h (hsub hx)) (not_lt.mpr (denote_le i hx))
  · intro hnone
    rw [hnone]
    exact Set.empty_subset _

/-! ## The outcome of a call -/

section Outcome

variable (hw : HwRefine) (n : Fin 12)

theorem update_accepted (params : SndPcmHwParams) (changed : Int) :
    (∃ q, accepted hw n (some (changed, params)) = some q ∧
        hw_param_update_var hw params (.interval n) changed = (0, q)) ∨
      (accepted hw n (some (changed, params)) = none ∧
        (hw_param_update_var hw params (.interval n) changed).1 < 0) := by
  unfold accepted hw_param_update_var snd_pcm_hw_refine snd_pcm_hw_param_empty
  rw [Option.bind_some]
  dsimp only
  by_cases hneg : changed < 0
  · rw [if_pos hneg, if_pos hneg]
    exact .inr ⟨rfl, hneg⟩
  rw [if_neg hneg, if_neg hneg]
  obtain ⟨asked, hasked⟩ : ∃ asked, (if changed ≠ 0 then params.mark (.interval n) else params) = asked := ⟨_, rfl⟩
  rw [hasked]
  by_cases hrmask : asked.rmask = 0#32
  · rw [if_pos hrmask, if_neg (not_not.mpr hrmask)]
    exact .inl ⟨asked, rfl, rfl⟩
  rw [if_neg hrmask, if_pos hrmask]
  by_cases herr : (hw asked).1 = 0
  · by_cases hempty : ((hw asked).2.intervals n).empty = true
    · exact .inr ⟨by simp [hempty], by simp [herr, hempty, ENOENT]⟩
    · exact .inl ⟨(hw asked).2, by simp [herr, hempty], by simp [herr, hempty]⟩
  · have hlt : -((hw asked).1 : Int) < 0 := by omega
    rw [if_neg fun h => herr h.1, if_pos hlt]
    exact .inr ⟨rfl, hlt⟩

/-- A setter that saves the parameters in front. -/
theorem saved_outcome {β : Type} (narrowed : Int × SndPcmHwParams) (save : SndPcmHwParams)
    (get : SndPcmHwParams → β) (v : β) :
    (∃ q, accepted hw n (some narrowed) = some q ∧
      ((refine_and_update hw (.interval n) (some narrowed)).map fun (err, params) =>
        if err = 0 then ((0 : Int), params, get params) else (err, save, v)) = some (0, q, get q)) ∨
    (accepted hw n (some narrowed) = none ∧ ∃ err, err < 0 ∧
      ((refine_and_update hw (.interval n) (some narrowed)).map fun (err, params) =>
        if err = 0 then ((0 : Int), params, get params) else (err, save, v)) = some (err, save, v)) := by
  unfold refine_and_update
  rw [Option.map_some, Option.map_some]
  dsimp only
  rcases update_accepted hw n narrowed.2 narrowed.1 with ⟨q, hq, hupdate⟩ | ⟨hnone, hneg⟩
  · rw [hupdate, if_pos rfl]
    exact .inl ⟨q, hq, rfl⟩
  · rw [if_neg hneg.ne]
    exact .inr ⟨hnone, _, hneg, rfl⟩

theorem not_hasOne (i : SndInterval) (h : ¬ HasOne i) : i.empty = true ∨ ¬ interval_is_single i = true := by
  by_contra hnot
  rw [not_or, Bool.not_eq_true, not_not] at hnot
  exact h hnot

/-- A setter that takes the first or the last value, and reads it. -/
theorem taken_outcome (narrowed : Int × SndPcmHwParams) (v : Val) :
    ∃ ret q w, ((refine_and_update hw (.interval n) (some narrowed)).map fun (err, params) =>
        if err = 0 then
          let (err, v) := _snd_pcm_hw_param_get params (.interval n) v
          (err, params, v)
        else (err, params, v)) = some (ret, q, w) ∧
      (OneLeft hw n (some narrowed) ∧ 0 ≤ ret ∨ ¬ OneLeft hw n (some narrowed) ∧ ret < 0 ∧ w = v) := by
  unfold refine_and_update
  rw [Option.map_some, Option.map_some]
  rcases update_accepted hw n narrowed.2 narrowed.1 with ⟨q, hq, hupdate⟩ | ⟨hnone, hneg⟩
  · dsimp only
    rw [hupdate]
    dsimp only
    rw [if_pos rfl]
    refine ⟨_, _, _, rfl, ?_⟩
    unfold _snd_pcm_hw_param_get
    dsimp only
    by_cases hone : HasOne (q.intervals n)
    · rw [if_neg (by simp [hone.1, hone.2])]
      exact .inl ⟨⟨q, hq, hone⟩, le_refl 0⟩
    · refine .inr ⟨?_, ?_⟩
      · rintro ⟨q', hq', hone'⟩
        rw [Option.some.inj (hq.symm.trans hq')] at hone
        exact hone hone'
      · rw [if_pos (not_hasOne _ hone)]
        exact ⟨(by decide : -EINVAL < 0), rfl⟩
  · dsimp only
    rw [if_neg hneg.ne]
    refine ⟨_, _, _, rfl, .inr ⟨?_, hneg, rfl⟩⟩
    rintro ⟨q, hq, -⟩
    rw [hnone] at hq
    cases hq

end Outcome

/-! ## Each request -/

section Requests

variable (hw : HwRefine) (params : SndPcmHwParams) (n : Fin 12)

theorem respects_iff (r : FramesRequest) (result : Result) (ret : Int) (q : SndPcmHwParams) (after : List Frames)
    (h : result = some (ret, q, after)) : Respects hw params n r result ↔
      (0 ≤ ret → denote (q.intervals n) ⊆ r.allowed) ∧ (ret < 0 → after.map Frames.val = r.values) ∧
        r.Selects hw params n ret q after := by
  rw [h]
  constructor
  · exact fun hall => hall ret q after rfl
  · rintro hone ret' q' after' heq
    simp only [Option.some.injEq, Prod.mk.injEq] at heq
    obtain ⟨rfl, rfl, rfl⟩ := heq
    exact hone

/-- A success of a request that selects nothing. -/
theorem respects_success_iff (r : FramesRequest) (result : Result) (ret : Int) (q : SndPcmHwParams)
    (after : List Frames) (h : result = some (ret, q, after)) (hret : 0 ≤ ret)
    (hselects : r.Selects hw params n ret q after) :
    Respects hw params n r result ↔ denote (q.intervals n) ⊆ r.allowed := by
  rw [respects_iff hw params n r result ret q after h]
  exact ⟨fun hall => hall.1 hret, fun hsub => ⟨fun _ => hsub, fun hneg => absurd hret (not_le.mpr hneg), hselects⟩⟩

/-- A failure of such a request, which has put back what it was cut to. -/
theorem respects_failure_iff (r : FramesRequest) (result : Result) (ret : Int) (q : SndPcmHwParams)
    (v : Frames) (h : result = some (ret, q, [widened v.cut])) (hret : ret < 0) (hvalues : r.values = [v.val])
    (hselects : r.Selects hw params n ret q [widened v.cut]) : Respects hw params n r result ↔ Short v.val := by
  rw [respects_iff hw params n r result ret q _ h, hvalues, ← widened_cut_val v]
  constructor
  · exact fun hall => (List.cons.inj (hall.2.1 hret)).1
  · exact fun hsame => ⟨fun hle => absurd hret (not_lt.mpr hle), fun _ => congrArg (fun val => [val]) hsame, hselects⟩

theorem noneLeft_some (narrowed : Option (Int × SndPcmHwParams)) (q : SndPcmHwParams)
    (h : accepted hw n narrowed = some q) : NoneLeft hw n narrowed ↔ denote (q.intervals n) = ∅ := by
  unfold NoneLeft
  rw [h]
  exact ⟨fun hall => hall q rfl, fun hnone q' hq' => Option.some.inj hq' ▸ hnone⟩

theorem noneLeft_none (narrowed : Option (Int × SndPcmHwParams)) (h : accepted hw n narrowed = none) :
    NoneLeft hw n narrowed := by
  intro q hq
  rw [h] at hq
  cases hq

section Ordered

variable (hhw : Narrowing hw) (hord : Ordered params n)

include hhw hord

theorem respects_set_iff (val : Uframes) (dir : Int) :
    Respects hw params n (.set val dir) (perform64 hw params n (.set val dir)) ↔
      (FramesRequest.set val dir).Meets hw params n := by
  obtain ⟨narrowed, hnarrowed⟩ : ∃ narrowed, hw_param_set params (.interval n) (val.setWidth 32) dir =
      some narrowed := by
    unfold hw_param_set on_interval
    dsimp only
    split_ifs
    · exact ⟨_, rfl⟩
    · exact ⟨_, rfl⟩
    · exact ⟨_, rfl⟩
  have hcall : perform64 hw params n (.set val dir) = some
      ((hw_param_update_var hw narrowed.2 (.interval n) narrowed.1).1,
        if (hw_param_update_var hw narrowed.2 (.interval n) narrowed.1).1 < 0 then params
        else (hw_param_update_var hw narrowed.2 (.interval n) narrowed.1).2, []) := by
    unfold perform64 of_set _snd_pcm_hw_param_set refine_and_update
    dsimp only
    rw [hnarrowed]
    rfl
  unfold FramesRequest.Meets
  dsimp only
  rw [hnarrowed]
  rcases update_accepted hw n narrowed.2 narrowed.1 with ⟨q, hq, hupdate⟩ | ⟨hnone, hneg⟩
  · rw [hupdate, if_neg (lt_irrefl 0)] at hcall
    rw [respects_success_iff hw params n (.set val dir) _ 0 q [] hcall (le_refl 0) trivial, noneLeft_some hw n _ q hq]
    by_cases hshort : MinShort val dir
    · refine iff_of_true ?_ (.inl hshort)
      have hset : _snd_pcm_hw_param_set hw params (.interval n) (val.setWidth 32) dir = some (0, q) := by
        unfold _snd_pcm_hw_param_set refine_and_update
        rw [hnarrowed, Option.map_some, Option.map_some]
        dsimp only
        rw [hupdate]
        rfl
      have hfits := setFits_of_ordered params n (val.setWidth 32) dir hord fun hend =>
        hshort.2 ⟨cut_eq_last val hshort.1 hend.2, hend.1⟩
      rw [allowed_set val dir hshort.1]
      exact (set_narrows hw hhw params q _ 0 _ dir hfits hset (le_refl 0)).2
    · rw [or_iff_right hshort]
      exact subset_beyond_iff _ _ (beyond_set val dir hshort)
  · refine iff_of_true ?_ (.inr (noneLeft_none hw n _ hnone))
    rw [respects_iff hw params n (.set val dir) _ _ _ _ hcall]
    exact ⟨fun hle => absurd hneg (not_lt.mpr hle), fun _ => rfl, trivial⟩

theorem respects_set_min_iff (v : Frames) :
    Respects hw params n (.set_min v) (perform64 hw params n (.set_min v)) ↔
      (FramesRequest.set_min v).Meets hw params n := by
  obtain ⟨narrowed, hnarrowed⟩ : ∃ narrowed, hw_param_set_min params (.interval n) v.cut.val v.cut.dirOr0 =
      some narrowed := ⟨_, rfl⟩
  have hset : _snd_pcm_hw_param_set_min hw params (.interval n) v.cut =
      ((refine_and_update hw (.interval n) (some narrowed)).map fun (err, params') =>
        if err = 0 then ((0 : Int), params', _snd_pcm_hw_param_get_min params' (.interval n) v.cut)
        else (err, params, v.cut)) := by
    rw [← hnarrowed]
    rfl
  unfold FramesRequest.Meets
  dsimp only
  rw [hnarrowed]
  rcases saved_outcome hw n narrowed params (_snd_pcm_hw_param_get_min · (.interval n) v.cut) v.cut with
    ⟨q, hq, hcall⟩ | ⟨hnone, err, herr, hcall⟩
  · rw [← hset] at hcall
    have hresult : perform64 hw params n (.set_min v) = some (0, q, _) := of_ptr_eq _ v 0 q _ hcall
    rw [respects_success_iff hw params n (.set_min v) _ 0 q _ hresult (le_refl 0) trivial,
      noneLeft_some hw n _ q hq, hq]
    by_cases hshort : MinShort v.val v.cut.dirOr0
    · refine iff_of_true ?_ (.inl hshort)
      have hfits := minFits_of_ordered params n v.cut.val v.cut.dirOr0 hord fun hend =>
        hshort.2 ⟨cut_eq_last v.val hshort.1 hend.2, hend.1⟩
      rw [allowed_min v hshort.1]
      exact (set_min_narrows hw hhw params q _ 0 _ _ hfits hcall (le_refl 0)).2
    · rw [or_iff_right hshort, subset_beyond_iff _ _ (beyond_min v hshort)]
      exact ⟨fun h => ⟨.inr rfl, h⟩, fun h => h.2⟩
  · rw [← hset] at hcall
    have hresult : perform64 hw params n (.set_min v) = some (err, params, [widened v.cut]) :=
      of_ptr_eq _ v err params _ hcall
    rw [respects_failure_iff hw params n (.set_min v) _ err params v hresult herr rfl trivial, hnone]
    constructor
    · exact fun hshort => .inr ⟨.inl hshort, noneLeft_none hw n _ hnone⟩
    · rintro (hshort | ⟨hshort | hsome, -⟩)
      · exact hshort.1
      · exact hshort
      · cases hsome

theorem denote_max_allowed (v : Frames) (q : SndPcmHwParams) (w : Val) (hzero : ¬ (v.val = 0 ∧ v.cut.dirOr0 < 0))
    (hset : _snd_pcm_hw_param_set_max hw params (.interval n) v.cut = some (0, q, w)) :
    denote (q.intervals n) ⊆ (FramesRequest.set_max v).allowed := by
  have hdir : v.dir.getD 0 = v.cut.dirOr0 := rfl
  by_cases hshort : Short v.val ∧ ¬ (v.val.toNat = 4294967295 ∧ v.cut.dirOr0 > 0)
  · obtain ⟨hshort, hlast⟩ := hshort
    rw [allowed_max v hshort]
    have hfits : MaxFits params (.interval n) v.cut.val v.cut.dirOr0 := by
      apply maxFits_of_ordered params n _ _ hord
      apply max_end_inside
      · exact fun hend => hlast ⟨cut_eq_last v.val hshort hend.2, hend.1⟩
      · exact fun hend => hzero ⟨cut_eq_zero v.val hshort hend.2, hend.1⟩
    exact (set_max_narrows hw hhw params q _ 0 _ _ hfits hset (le_refl 0)).2
  · -- No value reaches the request, whatever the upper end has become.
    intro x hx
    have hle : x ≤ 4294967295 := denote_le _ hx
    unfold FramesRequest.allowed
    rw [Set.mem_ofPred_eq, hdir]
    by_cases hlong : Short v.val
    · obtain ⟨hlast, hpos⟩ : v.val.toNat = 4294967295 ∧ v.cut.dirOr0 > 0 := by
        by_contra hnot
        exact hshort ⟨hlong, hnot⟩
      rw [if_neg hpos.ne', if_pos hpos]
      unfold count
      rw [hlast]
      push_cast
      linarith
    · have hcount := count_long v.val hlong
      split_ifs
      · linarith
      · linarith
      · linarith

theorem respects_set_max_iff (v : Frames) :
    Respects hw params n (.set_max v) (perform64 hw params n (.set_max v)) ↔
      (FramesRequest.set_max v).Meets hw params n := by
  obtain ⟨narrowed, hnarrowed⟩ : ∃ narrowed, hw_param_set_max params (.interval n) v.cut.val v.cut.dirOr0 =
      some narrowed := ⟨_, rfl⟩
  have hset : _snd_pcm_hw_param_set_max hw params (.interval n) v.cut =
      ((refine_and_update hw (.interval n) (some narrowed)).map fun (err, params') =>
        if err = 0 then ((0 : Int), params', _snd_pcm_hw_param_get_max params' (.interval n) v.cut)
        else (err, params, v.cut)) := by
    rw [← hnarrowed]
    rfl
  unfold FramesRequest.Meets
  dsimp only
  rw [hnarrowed]
  rcases saved_outcome hw n narrowed params (_snd_pcm_hw_param_get_max · (.interval n) v.cut) v.cut with
    ⟨q, hq, hcall⟩ | ⟨hnone, err, herr, hcall⟩
  · rw [← hset] at hcall
    have hresult : perform64 hw params n (.set_max v) = some (0, q, _) := of_ptr_eq _ v 0 q _ hcall
    rw [respects_success_iff hw params n (.set_max v) _ 0 q _ hresult (le_refl 0) trivial,
      noneLeft_some hw n _ q hq, hq]
    by_cases hzero : v.val = 0 ∧ v.cut.dirOr0 < 0
    · have hallowed : (FramesRequest.set_max v).allowed = {x | x < 0} := by
        have hdir : v.dir.getD 0 = v.cut.dirOr0 := rfl
        unfold FramesRequest.allowed count
        dsimp only
        rw [hdir, hzero.1]
        simp [hzero.2.ne, not_lt.mpr hzero.2.le]
      rw [hallowed]
      constructor
      · intro hsub
        refine ⟨.inr rfl, .inr (Set.eq_empty_of_forall_notMem fun x hx => ?_)⟩
        have hle := (num_nonneg _).trans (le_of_mem_above _ _ _ hx.1)
        exact absurd (hsub hx) (not_lt.mpr hle)
      · rintro ⟨-, hnot | hempty⟩
        · exact absurd hzero hnot
        · rw [hempty]
          exact Set.empty_subset _
    · refine iff_of_true (denote_max_allowed hw params n hhw hord v q _ hzero hcall) ⟨.inr rfl, .inl hzero⟩
  · rw [← hset] at hcall
    have hresult : perform64 hw params n (.set_max v) = some (err, params, [widened v.cut]) :=
      of_ptr_eq _ v err params _ hcall
    rw [respects_failure_iff hw params n (.set_max v) _ err params v hresult herr rfl trivial, hnone]
    constructor
    · exact fun hshort => ⟨.inl hshort, .inr (noneLeft_none hw n _ hnone)⟩
    · rintro ⟨hshort | hsome, -⟩
      · exact hshort
      · cases hsome

end Ordered

theorem respects_set_minmax_iff (min max : Frames) :
    Respects hw params n (.set_minmax min max) (perform64 hw params n (.set_minmax min max)) ↔
      (FramesRequest.set_minmax min max).Meets hw params n := by
  obtain ⟨narrowed, hnarrowed⟩ : ∃ narrowed, hw_param_set_minmax params (.interval n) min.cut.val min.cut.dirOr0
      max.cut.val max.cut.dirOr0 = some narrowed := by
    unfold hw_param_set_minmax hw_param_set_min hw_param_set_max on_interval
    dsimp only
    rw [Option.bind_some]
    split_ifs
    · exact ⟨_, rfl⟩
    · exact ⟨_, rfl⟩
  have hset : _snd_pcm_hw_param_set_minmax hw params (.interval n) min.cut max.cut =
      ((refine_and_update hw (.interval n) (some narrowed)).map fun (err, params') =>
        if err = 0 then ((0 : Int), params', _snd_pcm_hw_param_get_min params' (.interval n) min.cut,
          _snd_pcm_hw_param_get_max params' (.interval n) max.cut)
        else (err, params, min.cut, max.cut)) := by
    rw [← hnarrowed]
    rfl
  have hperform : ∀ ret q w w', _snd_pcm_hw_param_set_minmax hw params (.interval n) min.cut max.cut =
      some (ret, q, w, w') → perform64 hw params n (.set_minmax min max) = some (ret, q, [widened w, widened w']) := by
    intro ret q w w' h
    unfold perform64 of_ptrs _snd_pcm_hw_param_set_minmax64
    dsimp only
    rw [h, Option.map_some, Option.map_some]
  unfold FramesRequest.Meets
  dsimp only
  rw [hnarrowed]
  rcases saved_outcome hw n narrowed params (fun q => (_snd_pcm_hw_param_get_min q (.interval n) min.cut,
    _snd_pcm_hw_param_get_max q (.interval n) max.cut)) (min.cut, max.cut) with
    ⟨q, hq, hcall⟩ | ⟨hnone, err, herr, hcall⟩
  · rw [← hset] at hcall
    rw [respects_success_iff hw params n (.set_minmax min max) _ 0 q _ (hperform 0 q _ _ hcall) (le_refl 0) trivial, hq]
    exact iff_of_true (Set.subset_univ _) (.inr rfl)
  · rw [← hset] at hcall
    rw [respects_iff hw params n (.set_minmax min max) _ err params _ (hperform err params _ _ hcall), hnone,
      ← widened_cut_val min, ← widened_cut_val max]
    constructor
    · rintro ⟨-, hvalues, -⟩
      obtain ⟨hmin, hrest⟩ := List.cons.inj (hvalues herr)
      exact .inl ⟨hmin, (List.cons.inj hrest).1⟩
    · rintro (⟨hmin, hmax⟩ | hsome)
      · refine ⟨fun _ => Set.subset_univ _, fun _ => ?_, trivial⟩
        rw [List.map_cons, List.map_cons, hmin, hmax]
        rfl
      · cases hsome

theorem near_defined (v : Val) :
    ∃ ret q w, _snd_pcm_hw_param_set_near hw params (.interval n) v = some (ret, q, w) := by
  have hmax : ∀ v, ∃ r, _snd_pcm_hw_param_set_max hw params (.interval n) v = some r := fun _ => ⟨_, rfl⟩
  have hchoose : ∃ choice, near_choose hw params n v = some choice := by
    obtain ⟨r, hmin⟩ : ∃ r, _snd_pcm_hw_param_set_min hw params (.interval n) ⟨near_best v.val, some v.dirOr0⟩ =
      some r := ⟨_, rfl⟩
    obtain ⟨r', hmax⟩ := hmax (near_max (near_best v.val) v.dirOr0)
    unfold near_choose
    dsimp only
    rw [hmin, Option.bind_some, hmax]
    split_ifs
    · exact ⟨_, rfl⟩
    · exact ⟨_, rfl⟩
    · exact ⟨_, rfl⟩
    · exact ⟨_, rfl⟩
  obtain ⟨choice, hchoice⟩ := hchoose
  unfold _snd_pcm_hw_param_set_near
  dsimp only
  rw [hchoice, Option.bind_some]
  cases choice with
  | done ret q w => exact ⟨ret, q, w, rfl⟩
  | finish last q =>
    cases last with
    | true => exact ⟨_, _, _, rfl⟩
    | false => exact ⟨_, _, _, rfl⟩

theorem respects_set_near_iff (v : Frames) :
    Respects hw params n (.set_near v) (perform64 hw params n (.set_near v)) ↔
      (FramesRequest.set_near v).Meets hw params n := by
  obtain ⟨ret, q, w, hset⟩ := near_defined hw params n v.cut
  rw [respects_iff hw params n (.set_near v) (perform64 hw params n (.set_near v)) ret q _ (of_ptr_eq _ v ret q w hset)]
  unfold FramesRequest.Meets
  dsimp only
  by_cases hshort : Short v.val
  · refine iff_of_true ⟨fun _ => Set.subset_univ _, fun hneg => ?_, ?_⟩ (.inl hshort)
    · rw [near_spares hw params n v.cut ret q w hset hneg]
      exact congrArg (fun val => [val]) ((widened_cut_val v).mpr hshort)
    · obtain ⟨selected, hselected, hsame⟩ :=
        set_near_congr hw params n v.cut v.limited rfl (near_best_limited v (.inl hshort)) ret q w hset
      exact ⟨selected, hselected, fun hret => by rw [hsame hret]⟩
  · rw [or_iff_right hshort]
    constructor
    · rintro ⟨-, hvalues, selected, hselected, hsame⟩
      have hret : 0 ≤ ret := by
        by_contra hneg
        exact widened_ne v w hshort (List.cons.inj (hvalues (not_le.mp hneg))).1
      obtain rfl := widened_inj w selected (List.cons.inj (hsame hret)).1
      exact ⟨ret, q, w, hret, hset, .inr hselected⟩
    · rintro ⟨ret', q', w', hret, hset', hsearch⟩
      rw [hset, Option.some.injEq, Prod.mk.injEq, Prod.mk.injEq] at hset'
      obtain ⟨rfl, rfl, rfl⟩ := hset'
      refine ⟨fun _ => Set.subset_univ _, fun hneg => absurd hret (not_le.mpr hneg), ?_⟩
      rcases hsearch with hlarge | hselected
      · obtain ⟨selected, hselected, hsame⟩ :=
          set_near_congr hw params n v.cut v.limited rfl (near_best_limited v (.inr hlarge)) ret q w hset
        exact ⟨selected, hselected, fun hret => by rw [hsame hret]⟩
      · exact ⟨w, hselected, fun _ => rfl⟩

/-- `set_first` and `set_last` have nothing to respect but `*val` in a failure. -/
theorem respects_taken_iff (r : FramesRequest) (set : Val → Option (Int × SndPcmHwParams × Val)) (v : Frames)
    (narrowed : Int × SndPcmHwParams)
    (hset : set v.cut = ((refine_and_update hw (.interval n) (some narrowed)).map fun (err, params) =>
        if err = 0 then
          let (err, v) := _snd_pcm_hw_param_get params (.interval n) v.cut
          (err, params, v)
        else (err, params, v.cut)))
    (hallowed : r.allowed = Set.univ) (hvalues : r.values = [v.val])
    (hselects : ∀ ret q after, r.Selects hw params n ret q after) :
    Respects hw params n r (of_ptr (define_set64 set v)) ↔ Short v.val ∨ OneLeft hw n (some narrowed) := by
  obtain ⟨ret, q, w, hcall, hone | hnone⟩ := taken_outcome hw n narrowed v.cut
  · rw [← hset] at hcall
    rw [respects_success_iff hw params n r _ ret q _ (of_ptr_eq set v ret q w hcall) hone.2 (hselects _ _ _), hallowed]
    exact iff_of_true (Set.subset_univ _) (.inr hone.1)
  · obtain ⟨hnot, hneg, rfl⟩ := hnone
    rw [← hset] at hcall
    rw [respects_failure_iff hw params n r _ ret q v (of_ptr_eq set v ret q _ hcall) hneg hvalues (hselects _ _ _),
      or_iff_left hnot]

theorem respects_set_first_iff (v : Frames) :
    Respects hw params n (.set_first v) (perform64 hw params n (.set_first v)) ↔
      (FramesRequest.set_first v).Meets hw params n :=
  respects_taken_iff hw params n (.set_first v) (_snd_pcm_hw_param_set_first hw params (.interval n)) v _ rfl rfl rfl
    fun _ _ _ => trivial

theorem respects_set_last_iff (v : Frames) :
    Respects hw params n (.set_last v) (perform64 hw params n (.set_last v)) ↔
      (FramesRequest.set_last v).Meets hw params n :=
  respects_taken_iff hw params n (.set_last v) (_snd_pcm_hw_param_set_last hw params (.interval n)) v _ rfl rfl rfl
    fun _ _ _ => trivial

theorem respects_get_iff (stack : BitVec 32) (v : Frames) :
    Respects hw params n (.get stack v) (perform64 hw params n (.get stack v)) ↔
      (FramesRequest.get stack v).Meets hw params n := by
  obtain ⟨⟨ret, w⟩, hget⟩ : ∃ r, _snd_pcm_hw_param_get params (.interval n) ⟨stack, v.dir⟩ = r := ⟨_, rfl⟩
  have hcall : perform64 hw params n (.get stack v) = some (ret, params, [widened w]) := by
    unfold perform64 of_get _snd_pcm_hw_param_get64 define_get64
    dsimp only
    rw [hget]
  unfold FramesRequest.Meets
  dsimp only
  unfold _snd_pcm_hw_param_get at hget
  dsimp only at hget
  by_cases hone : HasOne (params.intervals n)
  · rw [if_neg (by simp [hone.1, hone.2])] at hget
    obtain ⟨rfl, rfl⟩ := Prod.mk.inj hget
    rw [respects_success_iff hw params n (.get stack v) _ 0 params _ hcall (le_refl 0) trivial]
    exact iff_of_true (Set.subset_univ _) (.inr hone)
  · rw [if_pos (not_hasOne _ hone)] at hget
    obtain ⟨rfl, rfl⟩ := Prod.mk.inj hget
    rw [respects_iff hw params n (.get stack v) _ _ _ _ hcall, or_iff_left hone]
    constructor
    · exact fun hall => ((List.cons.inj (hall.2.1 (by decide))).1).symm
    · exact fun hsame => ⟨fun _ => Set.subset_univ _, fun _ => congrArg (fun val => [val]) hsame.symm, trivial⟩

theorem respects_returns (r : FramesRequest) (v : Frames) (hallowed : r.allowed = Set.univ)
    (hselects : ∀ ret q after, r.Selects hw params n ret q after) :
    Respects hw params n r (of_get params (0, v)) := by
  apply (respects_success_iff hw params n r (of_get params (0, v)) 0 params [v] rfl (le_refl 0) (hselects _ _ _)).mpr
  rw [hallowed]
  exact Set.subset_univ _

theorem respects_iff_meets (hhw : Narrowing hw) (hord : Ordered params n) (r : FramesRequest) :
    Respects hw params n r (perform64 hw params n r) ↔ r.Meets hw params n := by
  cases r with
  | set val dir => exact respects_set_iff hw params n hhw hord val dir
  | set_min v => exact respects_set_min_iff hw params n hhw hord v
  | set_max v => exact respects_set_max_iff hw params n hhw hord v
  | set_minmax min max => exact respects_set_minmax_iff hw params n min max
  | set_near v => exact respects_set_near_iff hw params n v
  | set_first v => exact respects_set_first_iff hw params n v
  | set_last v => exact respects_set_last_iff hw params n v
  | get stack v => exact respects_get_iff hw params n stack v
  | get_min stack v => exact iff_of_true (respects_returns hw params n _ _ rfl fun _ _ _ => trivial) trivial
  | get_max stack v => exact iff_of_true (respects_returns hw params n _ _ rfl fun _ _ _ => trivial) trivial

end Requests

/-! ## All calls -/

theorem any_ordered (n : Fin 12) : Ordered any_params n := by
  intro _
  have hfull : any_params.intervals n = ⟨0#32, UINT_MAX, false, false, false, false⟩ := rfl
  rw [hfull]
  decide

end Salsa.Pcm
