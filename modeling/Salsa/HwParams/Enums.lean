import Salsa.HwParams.MaskSets
import Salsa.HwParams.Restore

/-!
# Enumerated parameters

The access, the format and the subformat are masks, and the setters of one value take any
32 bits for it.
-/

namespace Salsa.HwParams

/-- `snd_pcm_format_value` returns it for a name that it does not know. -/
def SND_PCM_FORMAT_UNKNOWN : BitVec 32 := -1#32

def snd_pcm_hw_params_test_access (hw : HwRefine) (params : SndPcmHwParams) (acc : BitVec 32) :
    Option (Int × SndPcmHwParams) :=
  _snd_pcm_hw_param_test hw params (.mask SNDRV_PCM_HW_PARAM_ACCESS) ⟨acc, none⟩

def snd_pcm_hw_params_set_access (hw : HwRefine) (params : SndPcmHwParams) (acc : BitVec 32) :
    Option (Int × SndPcmHwParams) :=
  _snd_pcm_hw_param_set hw params (.mask SNDRV_PCM_HW_PARAM_ACCESS) acc 0

def snd_pcm_hw_params_test_format (hw : HwRefine) (params : SndPcmHwParams) (format : BitVec 32) :
    Option (Int × SndPcmHwParams) :=
  _snd_pcm_hw_param_test hw params (.mask SNDRV_PCM_HW_PARAM_FORMAT) ⟨format, none⟩

def snd_pcm_hw_params_set_format (hw : HwRefine) (params : SndPcmHwParams) (format : BitVec 32) :
    Option (Int × SndPcmHwParams) :=
  _snd_pcm_hw_param_set hw params (.mask SNDRV_PCM_HW_PARAM_FORMAT) format 0

def snd_pcm_hw_params_test_subformat (hw : HwRefine) (params : SndPcmHwParams) (subformat : BitVec 32) :
    Option (Int × SndPcmHwParams) :=
  _snd_pcm_hw_param_test hw params (.mask SNDRV_PCM_HW_PARAM_SUBFORMAT) ⟨subformat, none⟩

def snd_pcm_hw_params_set_subformat (hw : HwRefine) (params : SndPcmHwParams) (subformat : BitVec 32) :
    Option (Int × SndPcmHwParams) :=
  _snd_pcm_hw_param_set hw params (.mask SNDRV_PCM_HW_PARAM_SUBFORMAT) subformat 0

/-- The call stays in the words of the mask, and fails on a value that is not in it. -/
def Rejects (params : SndPcmHwParams) (m : Fin 3) (v : BitVec 32) (r : Option (Int × SndPcmHwParams)) : Prop :=
  ∃ err params', r = some (err, params') ∧
    (v.toNat ∉ mask_values (params.masks m) → err < 0 ∧ params' = params)

theorem mask_leave_single_none (mask : SndMask) (val : Nat) (h : ¬ val < SND_MASK_MAX) :
    mask_leave_single mask val = none := by
  have hofs : MASK_OFS val = none := by
    rw [MASK_OFS, dif_neg]
    simp only [SND_MASK_MAX] at h
    omega
  rw [mask_leave_single, hofs, Option.map_none]

/-- A value behind the last word is looked up all the same, unless the mask is empty. -/
theorem snd_mask_refine_set_none (mask : SndMask) (val : Nat) :
    snd_mask_refine_set mask val = none ↔ ¬ val < SND_MASK_MAX ∧ ¬ mask_is_empty mask = true := by
  unfold snd_mask_refine_set
  by_cases hempty : mask_is_empty mask = true
  · simp [hempty]
  · by_cases hval : val < SND_MASK_MAX
    · obtain ⟨mask', hleave, -⟩ := mask_leave_single_spec mask val hval
      simp [hempty, hval, hleave]
    · simp [hempty, hval, mask_leave_single_none mask val hval]

/-- A value that is not in the mask is refused. -/
theorem snd_mask_refine_set_foreign (mask mask' : SndMask) (val : Nat) (ret : Int)
    (hmem : val ∉ mask_values mask) (h : snd_mask_refine_set mask val = some (ret, mask')) : ret < 0 := by
  by_cases hempty : mask_is_empty mask = true
  · simp only [snd_mask_refine_set, hempty, if_true, Option.some.injEq, Prod.mk.injEq] at h
    obtain ⟨rfl, -⟩ := h
    decide
  · have hval : val < SND_MASK_MAX := by
      by_contra hge
      rw [(snd_mask_refine_set_none mask val).mpr ⟨hge, hempty⟩] at h
      cases h
    obtain ⟨ret', mask1, heq, -, -, hinval, -⟩ := snd_mask_refine_set_sets mask val hval
    have hnone : mask_values mask ∩ {val} = ∅ := Set.inter_singleton_eq_empty.mpr hmem
    obtain ⟨rfl, -⟩ : ret = ret' ∧ mask' = mask1 := by
      rw [h] at heq
      simpa using heq
    have hret := hinval.mpr ⟨mt (mask_is_empty_iff mask).mpr hempty, hnone⟩
    rw [hret]
    decide

theorem hw_param_set_mask_eq (params : SndPcmHwParams) (m : Fin 3) (val : BitVec 32) :
    hw_param_set params (.mask m) val 0 =
      on_mask params m (snd_mask_refine_set (params.masks m) val.toNat) := by
  simp [hw_param_set]

theorem set_mask_rejects (hw : HwRefine) (params : SndPcmHwParams) (m : Fin 3) (v : BitVec 32) :
    Rejects params m v (_snd_pcm_hw_param_set hw params (.mask m) v 0) ↔
      v.toNat < SND_MASK_MAX ∨ mask_values (params.masks m) = ∅ := by
  rw [_snd_pcm_hw_param_set, refine_and_update, hw_param_set_mask_eq, on_mask, ← mask_is_empty_iff]
  cases hset : snd_mask_refine_set (params.masks m) v.toNat with
  | none =>
    have hout := (snd_mask_refine_set_none _ _).mp hset
    simp [Rejects, hout]
  | some r =>
    obtain ⟨ret, mask'⟩ := r
    have hin : v.toNat < SND_MASK_MAX ∨ mask_is_empty (params.masks m) = true := by
      by_contra hout
      push Not at hout
      rw [(snd_mask_refine_set_none _ _).mpr ⟨by omega, hout.2⟩] at hset
      cases hset
    refine iff_of_true ?_ hin
    generalize hupdate : hw_param_update_var hw (params.set_mask m mask') (.mask m) ret = updated
    refine ⟨updated.1, if updated.1 < 0 then params else updated.2, by rw [← hupdate]; rfl, fun hmem => ?_⟩
    have hret := snd_mask_refine_set_foreign _ _ _ _ hmem hset
    rw [← hupdate, hw_param_update_var_error hw _ _ ret hret]
    exact ⟨hret, if_pos hret⟩

theorem test_mask_rejects (hw : HwRefine) (params : SndPcmHwParams) (m : Fin 3) (v : BitVec 32) :
    Rejects params m v (_snd_pcm_hw_param_test hw params (.mask m) ⟨v, none⟩) ↔
      v.toNat < SND_MASK_MAX ∨ mask_values (params.masks m) = ∅ := by
  rw [← set_mask_rejects hw params m v]
  constructor
  · rintro ⟨err, params', h, hrej⟩
    obtain ⟨⟨err', params1⟩, hset, heq⟩ := Option.map_eq_some_iff.mp h
    obtain ⟨rfl, rfl⟩ : err' = err ∧ params = params' := by simpa using heq
    refine ⟨err', params1, hset, fun hmem => ⟨(hrej hmem).1, ?_⟩⟩
    obtain ⟨⟨err1, params2⟩, -, heq1⟩ := Option.map_eq_some_iff.mp hset
    obtain ⟨rfl, rfl⟩ : err1 = err' ∧ (if err1 < 0 then params else params2) = params1 := by simpa using heq1
    rw [if_pos (hrej hmem).1]
  · rintro ⟨err, params', h, hrej⟩
    refine ⟨err, params, ?_, fun hmem => ⟨(hrej hmem).1, rfl⟩⟩
    simp only [Val.dirOr0, _snd_pcm_hw_param_test, Option.getD_none, h, Option.map_some]

/-- The enumerated parameters refuse a value that they do not have, as long as the mask has
a bit for it or no bit is set. -/
theorem enum_params_reject (hw : HwRefine) (params : SndPcmHwParams) (v : BitVec 32) :
    (∀ call ∈ [snd_pcm_hw_params_set_access, snd_pcm_hw_params_test_access],
        Rejects params SNDRV_PCM_HW_PARAM_ACCESS v (call hw params v) ↔
          v.toNat < SND_MASK_MAX ∨ mask_values (params.masks SNDRV_PCM_HW_PARAM_ACCESS) = ∅) ∧
      (∀ call ∈ [snd_pcm_hw_params_set_format, snd_pcm_hw_params_test_format],
        Rejects params SNDRV_PCM_HW_PARAM_FORMAT v (call hw params v) ↔
          v.toNat < SND_MASK_MAX ∨ mask_values (params.masks SNDRV_PCM_HW_PARAM_FORMAT) = ∅) ∧
      (∀ call ∈ [snd_pcm_hw_params_set_subformat, snd_pcm_hw_params_test_subformat],
        Rejects params SNDRV_PCM_HW_PARAM_SUBFORMAT v (call hw params v) ↔
          v.toNat < SND_MASK_MAX ∨ mask_values (params.masks SNDRV_PCM_HW_PARAM_SUBFORMAT) = ∅) := by
  simp only [List.forall_mem_cons, List.not_mem_nil, false_imp_iff, implies_true, and_true]
  exact ⟨⟨set_mask_rejects hw params _ v, test_mask_rejects hw params _ v⟩,
    ⟨set_mask_rejects hw params _ v, test_mask_rejects hw params _ v⟩,
    ⟨set_mask_rejects hw params _ v, test_mask_rejects hw params _ v⟩⟩

/-- The format of an unknown name is looked up 2^27 words behind the mask. -/
theorem unknown_format_not_rejected :
    ¬ ∀ hw params v, Rejects params SNDRV_PCM_HW_PARAM_FORMAT v (snd_pcm_hw_params_set_format hw params v) := by
  intro hall
  obtain ⟨err, params', h, -⟩ := hall (fun p => (0, p)) any_params SND_PCM_FORMAT_UNKNOWN
  have hnone : snd_pcm_hw_params_set_format (fun p => (0, p)) any_params SND_PCM_FORMAT_UNKNOWN = none := by
    decide
  rw [hnone] at h
  cases h

end Salsa.HwParams
