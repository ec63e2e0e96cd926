import Salsa.HwParams.Params

/-!
# Failed setters

Which setters leave the parameters as they were when they fail. All that save the
parameters first do; `_snd_pcm_hw_param_set_mask` never saves them, and
`_snd_pcm_hw_param_set_integer` saves them after it has flagged an empty interval.
-/

namespace Salsa.HwParams

inductive Setter where
  | set (var : Var) (val : BitVec 32) (dir : Int)
  | set_min (var : Var) (v : Val)
  | set_max (var : Var) (v : Val)
  | set_minmax (var : Var) (min max : Val)
  | set_integer (var : Var)
  | set_mask (var : Var) (val : SndMask)
  | set_access_mask (val : SndMask)
  | set_format_mask (val : SndMask)
  | set_subformat_mask (val : SndMask)
  | test (var : Var) (v : Val)

/-- What the call returns and what it leaves in the parameters. -/
def call (hw : HwRefine) (params : SndPcmHwParams) : Setter → Option (Int × SndPcmHwParams)
  | .set var val dir => _snd_pcm_hw_param_set hw params var val dir
  | .set_min var v => (_snd_pcm_hw_param_set_min hw params var v).map fun r => (r.1, r.2.1)
  | .set_max var v => (_snd_pcm_hw_param_set_max hw params var v).map fun r => (r.1, r.2.1)
  | .set_minmax var min max =>
    (_snd_pcm_hw_param_set_minmax hw params var min max).map fun r => (r.1, r.2.1)
  | .set_integer var => _snd_pcm_hw_param_set_integer hw params var
  | .set_mask var val => _snd_pcm_hw_param_set_mask hw params var val
  | .set_access_mask val => snd_pcm_hw_params_set_access_mask hw params val
  | .set_format_mask val => snd_pcm_hw_params_set_format_mask hw params val
  | .set_subformat_mask val => snd_pcm_hw_params_set_subformat_mask hw params val
  | .test var v => _snd_pcm_hw_param_test hw params var v

def Setter.isTest : Setter → Prop
  | .test _ _ => True
  | _ => False

/-- The call leaves the parameters as they were if it fails, or if it only looks. -/
def Untouched (hw : HwRefine) (params : SndPcmHwParams) (setter : Setter) : Prop :=
  ∀ ret params', call hw params setter = some (ret, params') → ret < 0 ∨ setter.isTest →
    params' = params

/-! ## When a call restores -/

/-- The parameters that `_snd_pcm_hw_param_set_mask` hands to the kernel. -/
def masked (params : SndPcmHwParams) (m : Fin 3) (val : SndMask) : SndPcmHwParams :=
  let (changed, mask) := snd_mask_refine (params.masks m) val
  if changed ≠ 0 then (params.set_mask m mask).mark (.mask m) else params.set_mask m mask

/-- A kernel that refuses parameters does not write to them. -/
def WritesNothing (hw : HwRefine) : Prop := ∀ p, (hw p).1 ≠ 0 → (hw p).2 = p

/-- `val` has all of the mask, which has something in it or is marked already. -/
def MaskStays (params : SndPcmHwParams) (m : Fin 3) (val : SndMask) : Prop :=
  (∀ w, (params.masks m).bits w &&& val.bits w = (params.masks m).bits w) ∧
    (mask_is_empty (params.masks m) = true → params.mark (.mask m) = params)

/-- There is nothing to ask the kernel, or it accepts the narrowed mask, or nothing is narrowed. -/
def MaskRestores (hw : HwRefine) (params : SndPcmHwParams) (m : Fin 3) (val : SndMask) : Prop :=
  (masked params m val).rmask = 0#32 ∨ (hw (masked params m val)).1 = 0 ∨
    (MaskStays params m val ∧ WritesNothing hw)

/-- The interval is an integer one already, or flagged, or has something in it. -/
def IntegerRestores (i : SndInterval) : Prop := i.integer ∨ i.empty ∨ ¬ interval_is_crossed i

def Restores (hw : HwRefine) (params : SndPcmHwParams) : Setter → Prop
  | .set_integer (.interval n) => IntegerRestores (params.intervals n)
  | .set_mask (.mask m) val => MaskRestores hw params m val
  | .set_access_mask val => MaskRestores hw params SNDRV_PCM_HW_PARAM_ACCESS val
  | .set_format_mask val => MaskRestores hw params SNDRV_PCM_HW_PARAM_FORMAT val
  | .set_subformat_mask val => MaskRestores hw params SNDRV_PCM_HW_PARAM_SUBFORMAT val
  | _ => True

/-! ## The setters that save first -/

theorem set_restores (hw : HwRefine) (params params' : SndPcmHwParams) (var : Var) (val : BitVec 32)
    (dir ret : Int) (h : _snd_pcm_hw_param_set hw params var val dir = some (ret, params'))
    (hret : ret < 0) : params' = params := by
  obtain ⟨⟨err, p⟩, -, heq⟩ := Option.map_eq_some_iff.mp h
  simp only [Prod.mk.injEq] at heq
  rw [← heq.2, if_pos (heq.1 ▸ hret)]

theorem saved_restores {β : Type} (refined : Option (Int × SndPcmHwParams))
    (save params' : SndPcmHwParams) (get : SndPcmHwParams → β) (v v' : β) (ret : Int)
    (h : (refined.map fun (err, params) =>
      if err = 0 then ((0 : Int), params, get params) else (err, save, v)) = some (ret, params', v'))
    (hret : ret < 0) : params' = save := by
  obtain ⟨⟨err, p⟩, -, heq⟩ := Option.map_eq_some_iff.mp h
  dsimp only at heq
  split_ifs at heq with herr
  · simp only [Prod.mk.injEq] at heq
    omega
  · simp only [Prod.mk.injEq] at heq
    exact heq.2.1.symm

theorem set_min_restores (hw : HwRefine) (params params' : SndPcmHwParams) (var : Var) (v v' : Val)
    (ret : Int) (h : _snd_pcm_hw_param_set_min hw params var v = some (ret, params', v'))
    (hret : ret < 0) : params' = params :=
  saved_restores _ params params' (_snd_pcm_hw_param_get_min · var v) v v' ret h hret

theorem test_restores (hw : HwRefine) (params params' : SndPcmHwParams) (var : Var) (v : Val)
    (ret : Int) (h : _snd_pcm_hw_param_test hw params var v = some (ret, params')) :
    params' = params := by
  obtain ⟨⟨err, p⟩, -, heq⟩ := Option.map_eq_some_iff.mp h
  simp only [Prod.mk.injEq] at heq
  exact heq.2.symm

/-! ## The mask setter and the integer setter -/

theorem set_mask_eq (hw : HwRefine) (params : SndPcmHwParams) (m : Fin 3) (val : SndMask) :
    _snd_pcm_hw_param_set_mask hw params (.mask m) val =
      if (masked params m val).rmask ≠ 0#32 then some (snd_pcm_hw_refine hw (masked params m val))
      else some (0, masked params m val) := rfl

theorem masked_masks (params : SndPcmHwParams) (m : Fin 3) (val : SndMask) :
    (masked params m val).masks m = (snd_mask_refine (params.masks m) val).2 := by
  unfold masked
  dsimp only
  split_ifs
  · exact masks_set_mask params m _
  · exact masks_set_mask params m _

theorem snd_mask_refine_same (mask val : SndMask) :
    (snd_mask_refine mask val).2 = mask ↔ ∀ w, mask.bits w &&& val.bits w = mask.bits w :=
  ⟨fun h w => congrFun (congrArg SndMask.bits h) w, fun h => SndMask.ext h⟩

theorem masked_eq_iff (params : SndPcmHwParams) (m : Fin 3) (val : SndMask) :
    masked params m val = params ↔ MaskStays params m val := by
  unfold MaskStays
  rw [← snd_mask_refine_same]
  by_cases hsame : (snd_mask_refine (params.masks m) val).2 = params.masks m
  · have hchanged : (snd_mask_refine (params.masks m) val).1 =
        if mask_is_empty (params.masks m) then -EINVAL else 0 := by
      unfold snd_mask_refine at hsame ⊢
      dsimp only at hsame ⊢
      rw [hsame, if_pos rfl]
    unfold masked
    dsimp only
    rw [hchanged, hsame, set_mask_self]
    by_cases hempty : mask_is_empty (params.masks m) = true
    · simp [hempty, EINVAL]
    · simp [hempty]
  · refine iff_of_false (fun h => hsame ?_) fun h => hsame h.1
    rw [← masked_masks, h]

theorem set_mask_restores (hw : HwRefine) (params : SndPcmHwParams) (m : Fin 3) (val : SndMask)
    (h : MaskRestores hw params m val) (ret : Int) (params' : SndPcmHwParams)
    (hcall : _snd_pcm_hw_param_set_mask hw params (.mask m) val = some (ret, params')) (hret : ret < 0) :
    params' = params := by
  rw [set_mask_eq] at hcall
  split_ifs at hcall with hrmask
  · simp only [snd_pcm_hw_refine, Option.some.injEq, Prod.mk.injEq] at hcall
    rcases h with hzero | haccepts | ⟨hstays, hkernel⟩
    · exact absurd hzero hrmask
    · omega
    · rw [← hcall.2, hkernel _ (by omega)]
      exact (masked_eq_iff params m val).mpr hstays
  · simp only [Option.some.injEq, Prod.mk.injEq] at hcall
    omega

theorem restores_of_set_mask (hw : HwRefine) (hhw : WritesNothing hw) (params : SndPcmHwParams) (m : Fin 3)
    (val : SndMask) (h : ∀ ret params', _snd_pcm_hw_param_set_mask hw params (.mask m) val = some (ret, params') →
      ret < 0 → params' = params) : MaskRestores hw params m val := by
  by_cases hrmask : (masked params m val).rmask = 0#32
  · exact .inl hrmask
  by_cases haccepts : (hw (masked params m val)).1 = 0
  · exact .inr (.inl haccepts)
  have hsame := h (-((hw (masked params m val)).1 : Int)) _ (by rw [set_mask_eq, if_pos hrmask]; rfl) (by omega)
  rw [hhw _ haccepts] at hsame
  exact .inr (.inr ⟨(masked_eq_iff params m val).mp hsame, hhw⟩)

theorem set_interval_inj (params : SndPcmHwParams) (n : Fin 12) (i : SndInterval)
    (h : params.set_interval n i = params) : i = params.intervals n := by
  have := congrArg (fun p => p.intervals n) h
  simpa [SndPcmHwParams.set_interval] using this

theorem set_integer_restores_iff (hw : HwRefine) (params : SndPcmHwParams) (n : Fin 12) :
    (∀ ret params', _snd_pcm_hw_param_set_integer hw params (.interval n) = some (ret, params') →
      ret < 0 → params' = params) ↔ IntegerRestores (params.intervals n) := by
  obtain ⟨i, hi⟩ : ∃ i, params.intervals n = i := ⟨_, rfl⟩
  rw [_snd_pcm_hw_param_set_integer, hi]
  by_cases hinteger : i.integer = true
  · rw [if_pos hinteger]
    refine iff_of_true (fun ret params' hcall hret => ?_) (Or.inl hinteger)
    simp only [Option.some.injEq, Prod.mk.injEq] at hcall
    omega
  by_cases hcrossed : interval_is_crossed i = true
  · -- The flag is set, and nothing is saved yet.
    simp only [if_neg hinteger, interval_check_empty, if_pos hcrossed, if_true]
    constructor
    · intro h
      have := set_interval_inj params n _ (h (-EINVAL) _ rfl (by decide))
      rw [hi] at this
      exact Or.inr (Or.inl (congrArg SndInterval.empty this).symm)
    · rintro (h | h | h) ret params' hcall -
      · exact absurd h hinteger
      · simp only [Option.some.injEq, Prod.mk.injEq] at hcall
        have hflag : { i with empty := true } = i := by rw [← h]
        rw [← hcall.2, hflag, ← hi]
        exact set_interval_self params n
      · exact absurd hcrossed h
  · simp only [if_neg hinteger, interval_check_empty, if_neg hcrossed, Bool.false_eq_true, if_false]
    refine iff_of_true (fun ret params' hcall hret => ?_) (Or.inr (Or.inr hcrossed))
    simp only [Option.some.injEq, Prod.mk.injEq] at hcall
    rw [← hcall.2, if_pos (hcall.1 ▸ hret), ← hi]
    exact set_interval_self params n

/-! ## All setters -/

theorem untouched_of_restores (hw : HwRefine) (params : SndPcmHwParams) (setter : Setter)
    (h : Restores hw params setter) : Untouched hw params setter := by
  intro ret params' hcall hneg
  cases setter with
  | set var val dir => exact set_restores hw params params' var val dir ret hcall (hneg.resolve_right id)
  | set_min var v =>
    obtain ⟨⟨_, _, v'⟩, hr, heq⟩ := Option.map_eq_some_iff.mp hcall
    obtain ⟨rfl, rfl⟩ := Prod.mk.inj heq
    exact set_min_restores hw params _ var v v' _ hr (hneg.resolve_right id)
  | set_max var v =>
    obtain ⟨⟨_, _, v'⟩, hr, heq⟩ := Option.map_eq_some_iff.mp hcall
    obtain ⟨rfl, rfl⟩ := Prod.mk.inj heq
    exact saved_restores _ _ _ (_snd_pcm_hw_param_get_max · var v) v _ _ hr (hneg.resolve_right id)
  | set_minmax var min max =>
    obtain ⟨⟨_, _, out⟩, hr, heq⟩ := Option.map_eq_some_iff.mp hcall
    obtain ⟨rfl, rfl⟩ := Prod.mk.inj heq
    exact saved_restores _ _ _ (fun p => (_snd_pcm_hw_param_get_min p var min,
      _snd_pcm_hw_param_get_max p var max)) (min, max) _ _ hr (hneg.resolve_right id)
  | set_integer var =>
    cases var with
    | mask m => cases hcall
    | interval n => exact (set_integer_restores_iff hw params n).mpr h ret params' hcall (hneg.resolve_right id)
  | set_mask var val =>
    cases var with
    | mask m => exact set_mask_restores hw params m val h ret params' hcall (hneg.resolve_right id)
    | interval n => cases hcall
  | set_access_mask val => exact set_mask_restores hw params _ val h ret params' hcall (hneg.resolve_right id)
  | set_format_mask val => exact set_mask_restores hw params _ val h ret params' hcall (hneg.resolve_right id)
  | set_subformat_mask val => exact set_mask_restores hw params _ val h ret params' hcall (hneg.resolve_right id)
  | test var v => exact test_restores hw params params' var v ret hcall

theorem restores_of_untouched (hw : HwRefine) (hhw : WritesNothing hw) (params : SndPcmHwParams) (setter : Setter)
    (h : Untouched hw params setter) : Restores hw params setter := by
  have hfails : ∀ ret params', call hw params setter = some (ret, params') → ret < 0 → params' = params :=
    fun ret params' hcall hret => h ret params' hcall (Or.inl hret)
  cases setter with
  | set_integer var =>
    cases var with
    | mask m => trivial
    | interval n => exact (set_integer_restores_iff hw params n).mp hfails
  | set_mask var val =>
    cases var with
    | mask m => exact restores_of_set_mask hw hhw params m val hfails
    | interval n => trivial
  | set_access_mask val => exact restores_of_set_mask hw hhw params _ val hfails
  | set_format_mask val => exact restores_of_set_mask hw hhw params _ val hfails
  | set_subformat_mask val => exact restores_of_set_mask hw hhw params _ val hfails
  | set _ _ _ => trivial
  | set_min _ _ => trivial
  | set_max _ _ => trivial
  | set_minmax _ _ _ => trivial
  | test _ _ => trivial

/-- The condition is enough for every kernel, and no more than what is needed for one that does not write to the
parameters that it refuses. -/
theorem untouched_iff (hw : HwRefine) (params : SndPcmHwParams) (setter : Setter) :
    (Restores hw params setter → Untouched hw params setter) ∧
      (WritesNothing hw → (Untouched hw params setter ↔ Restores hw params setter)) :=
  ⟨untouched_of_restores hw params setter,
    fun hhw => ⟨restores_of_untouched hw hhw params setter, untouched_of_restores hw params setter⟩⟩

/-- All masks and intervals full, as after `snd_pcm_hw_params_any` without a kernel. -/
def any_params : SndPcmHwParams :=
  { flags := 1#32, masks := fun _ => ⟨fun _ => -1#32⟩, mres := fun _ => mask_clear,
    intervals := fun _ => ⟨0#32, UINT_MAX, false, false, false, false⟩,
    ires := fun _ => ⟨0#32, 0#32, false, false, false, false⟩, rmask := -1#32, cmask := 0#32,
    info := -1#32, msbits := 0#32, rate_num := 0#32, rate_den := 0#32, fifo_size := 0#64,
    reserved := fun _ => 0#8 }

/-- A mask that narrows nothing is refused without a trace. -/
theorem full_mask_untouched : Untouched (fun p => (22, p)) any_params (.set_access_mask ⟨fun _ => -1#32⟩) :=
  ((untouched_iff (fun p => (22, p)) any_params (.set_access_mask ⟨fun _ => -1#32⟩)).2 fun _ _ => rfl).mpr
    (.inr (.inr ⟨⟨by decide, by decide⟩, fun _ _ => rfl⟩))

/-- A refused access mask stays in the parameters. -/
theorem refused_mask_stays : ¬ ∀ hw params setter, Untouched hw params setter := by
  intro hall
  have h := hall (fun p => (22, p)) any_params (.set_access_mask ⟨fun w => if w = 0 then 1#32 else 0#32⟩)
    (-22) _ rfl (Or.inl (by decide))
  have hmask := congrArg (fun p => (p.masks 0).bits 0) h
  revert hmask
  decide

end Salsa.HwParams
