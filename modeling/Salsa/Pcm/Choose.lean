import Salsa.Pcm.Ring
import Salsa.HwParams.Single

/-!
# Choosing a configuration

`snd_pcm_hw_params_choose` takes the first or the last value of one parameter after the other, and asks
the kernel each time. In the end the PCM takes over the values of one configuration.
-/

namespace Salsa.Pcm

open HwParams

/-! ## The loop -/

/-- One value is left of the parameter, the first or the last that it had. -/
structure Picked (last : Bool) (var : Var) (p q : SndPcmHwParams) : Prop where
  proper : Proper q
  sub : SubParams q p
  one : ∃ v, AtEnd last (values p var) v ∧ values q var = {v}

/-- From `p` to `p'`, each parameter of the list gets the first or the last value that is left of it, and the kernel
accepts it before the next one is picked. -/
inductive Picks (hw : HwRefine) : List (Var × Bool) → SndPcmHwParams → SndPcmHwParams → Prop
  | nil (p : SndPcmHwParams) : Picks hw [] p p
  | cons (var : Var) (last : Bool) (rest : List (Var × Bool)) (p q q' p' : SndPcmHwParams)
      (hpicked : Picked last var p q) (haccepted : Accepts hw q q') (hrest : Picks hw rest q' p') :
      Picks hw ((var, last) :: rest) p p'

/-- After picks that were accepted comes one, to `q`, that the kernel refuses. -/
inductive Refused (hw : HwRefine) : List (Var × Bool) → SndPcmHwParams → SndPcmHwParams → Prop
  | here (var : Var) (last : Bool) (rest : List (Var × Bool)) (p q : SndPcmHwParams) (hpicked : Picked last var p q)
      (hrefused : 0 < (hw q).1) : Refused hw ((var, last) :: rest) p q
  | later (var : Var) (last : Bool) (rest : List (Var × Bool)) (p r r' q : SndPcmHwParams)
      (hpicked : Picked last var p r) (haccepted : Accepts hw r r') (hrest : Refused hw rest r' q) :
      Refused hw ((var, last) :: rest) p q

section Loop

variable (k : Kernel) (hhw : Sound k.hw_refine)

include hhw

/-- The kernel cannot take the value back: what it leaves of the parameter is the value. -/
theorem set_chosen_outcome (last : Bool) (p : SndPcmHwParams) (var : Var) (hp : Proper p) :
    ∃ q r v,
      (if last then _snd_pcm_hw_param_set_last k.hw_refine p var ⟨0, none⟩
        else _snd_pcm_hw_param_set_first k.hw_refine p var ⟨0, none⟩) = some (r.1, r.2, v) ∧
      Picked last var p q ∧
      ((r.1 = 0 ∧ Accepts k.hw_refine q r.2) ∨
        (0 < (k.hw_refine q).1 ∧ r = (-((k.hw_refine q).1 : Int), (k.hw_refine q).2))) := by
  obtain ⟨changed, q, w, hset, hchanged, hq, hsub, hvalues, hend⟩ := set_end_outcome last p var hp
  have hcall : (if last then _snd_pcm_hw_param_set_last k.hw_refine p var ⟨0, none⟩
      else _snd_pcm_hw_param_set_first k.hw_refine p var ⟨0, none⟩) =
      (refine_and_update k.hw_refine var (set_end last p var)).map fun r =>
        if r.1 = 0 then
          ((_snd_pcm_hw_param_get r.2 var ⟨0, none⟩).1, r.2, (_snd_pcm_hw_param_get r.2 var ⟨0, none⟩).2)
        else (r.1, r.2, ⟨0, none⟩) := by
    cases last <;> rfl
  rw [hcall, hset]
  unfold refine_and_update
  obtain ⟨marked, hmarked, houtcome⟩ := update_outcome k.hw_refine hhw q var changed hq hchanged
  -- The mark does not touch the values.
  have hpicked : Picked last var p marked ∧ values marked var = {w} := by
    rw [hmarked]
    split_ifs
    · exact ⟨⟨mark_proper q var hq, ⟨hsub.masks, hsub.intervals⟩, w, hend, hvalues⟩, hvalues⟩
    · exact ⟨⟨hq, hsub, w, hend, hvalues⟩, hvalues⟩
  obtain ⟨hpicked, hvalues⟩ := hpicked
  rcases houtcome with ⟨q', haccepted, hupdate⟩ | ⟨hneg, hupdate⟩
  · obtain ⟨hsub', hq'⟩ := haccepted.sub hhw hpicked.proper
    have hkept := values_kept marked q' var w hq' hsub' hvalues
    obtain ⟨dir, hget⟩ := get_of_single q' var ⟨0, none⟩ hq' (single_of_values q' var w hq' hkept)
    refine ⟨marked, (0, q'), Val.write ⟨0, none⟩ (reading q' var) dir, ?_, hpicked, Or.inl ⟨rfl, haccepted⟩⟩
    simp only [Option.map_some, hupdate, if_true, hget]
  · refine ⟨marked, (-((k.hw_refine marked).1 : Int), (k.hw_refine marked).2), ⟨0, none⟩, ?_, hpicked,
      Or.inr ⟨hneg, rfl⟩⟩
    simp only [Option.map_some, hupdate]
    rw [if_neg (by omega)]

theorem choose_loop_outcome (l : List (Var × Bool)) (p : SndPcmHwParams) (hp : Proper p) :
    ∃ r, choose_loop k l p = some r ∧
      ((r.1 = 0 ∧ Picks k.hw_refine l p r.2) ∨
        ∃ q, Refused k.hw_refine l p q ∧ r = (-((k.hw_refine q).1 : Int), (k.hw_refine q).2)) := by
  induction l generalizing p with
  | nil => exact ⟨(0, p), rfl, Or.inl ⟨rfl, .nil p⟩⟩
  | cons c rest ih =>
    obtain ⟨var, last⟩ := c
    obtain ⟨q, r, v, hset, hpicked, houtcome⟩ := set_chosen_outcome k hhw last p var hp
    unfold choose_loop
    dsimp only
    rw [hset, Option.bind_some]
    rcases houtcome with ⟨hret, haccepted⟩ | ⟨hneg, rfl⟩
    · rw [if_neg (by omega)]
      obtain ⟨r', hloop, hrest⟩ := ih r.2 (haccepted.sub hhw hpicked.proper).2
      refine ⟨r', hloop, ?_⟩
      rcases hrest with ⟨hret', hpicks⟩ | ⟨q', hrefused, hr'⟩
      · exact Or.inl ⟨hret', .cons var last rest p q r.2 r'.2 hpicked haccepted hpicks⟩
      · exact Or.inr ⟨q', .later var last rest p q r.2 q' hpicked haccepted hrefused, hr'⟩
    · rw [if_pos (by omega)]
      exact ⟨_, rfl, Or.inr ⟨q, .here var last rest p q hpicked hneg, rfl⟩⟩

end Loop

section Picks

variable {hw : HwRefine}

theorem Refused.errno {l : List (Var × Bool)} {p q : SndPcmHwParams} (h : Refused hw l p q) : 0 < (hw q).1 := by
  induction h with
  | here var last rest p q hpicked hrefused => exact hrefused
  | later var last rest p r r' q hpicked haccepted hrest ih => exact ih

theorem picks_sub (hhw : Sound hw) (l : List (Var × Bool)) (p p' : SndPcmHwParams) (hp : Proper p)
    (h : Picks hw l p p') : SubParams p' p ∧ Proper p' := by
  induction h with
  | nil p => exact ⟨SubParams.refl p, hp⟩
  | cons var last rest p q q' p' hpicked haccepted hrest ih =>
    obtain ⟨hsub, hproper⟩ := haccepted.sub hhw hpicked.proper
    obtain ⟨hsub', hproper'⟩ := ih hproper
    exact ⟨hsub'.trans (hsub.trans hpicked.sub), hproper'⟩

/-- What is picked stays picked. -/
theorem picks_values (hhw : Sound hw) (l : List (Var × Bool)) (p p' : SndPcmHwParams) (h : Picks hw l p p')
    (var : Var) (last : Bool) (hmem : (var, last) ∈ l) : ∃ v, values p' var = {v} := by
  induction h with
  | nil => cases hmem
  | cons var' last' rest p q q' p' hpicked haccepted hrest ih =>
    rcases List.mem_cons.mp hmem with heq | hmem
    · obtain ⟨rfl, rfl⟩ := Prod.mk.inj heq
      obtain ⟨v, -, hvalues⟩ := hpicked.one
      obtain ⟨hsub, hproper⟩ := haccepted.sub hhw hpicked.proper
      obtain ⟨hsub', hproper'⟩ := picks_sub hhw rest q' p' hproper hrest
      exact ⟨v, values_kept q p' var v hproper' (hsub'.trans hsub) hvalues⟩
    · exact ih hmem

end Picks

theorem willing_sound : Sound willing.hw_refine := fun p hp _ => ⟨SubParams.refl p, hp⟩

/-- As `settled`, with a buffer of 256 to 1024 frames. -/
def sized : SndPcmHwParams := settled.set_interval BUFFER_SIZE ⟨256, 1024, false, false, true, false⟩

theorem settled_proper : Proper settled :=
  ⟨by decide, by decide, fun _ _ => ⟨rfl, rfl⟩, by decide⟩

theorem sized_proper : Proper sized :=
  proper_set_interval settled BUFFER_SIZE _ settled_proper rfl (fun _ => ⟨rfl, rfl⟩) (by decide)

/-- Each field is the one value of its parameter. -/
structure TakenOver (pcm : SndPcm) (p : SndPcmHwParams) : Prop where
  access : values p (.mask SNDRV_PCM_HW_PARAM_ACCESS) = {pcm._access.toNat}
  format : values p (.mask SNDRV_PCM_HW_PARAM_FORMAT) = {pcm.format.toNat}
  subformat : values p (.mask SNDRV_PCM_HW_PARAM_SUBFORMAT) = {pcm.subformat.toNat}
  channels : values p (.interval CHANNELS) = {pcm.channels.toNat}
  rate : values p (.interval RATE) = {pcm.rate.toNat}
  period_time : values p (.interval PERIOD_TIME) = {pcm.period_time.toNat}
  period_size : values p (.interval PERIOD_SIZE) = {pcm.period_size.toNat}
  buffer_size : values p (.interval BUFFER_SIZE) = {pcm.buffer_size.toNat}

theorem get_into_values (p : SndPcmHwParams) (var : Var) (field : BitVec 32) (v : ℕ) (hp : Proper p)
    (h : values p var = {v}) : values p var = {(get_into p var field).toNat} := by
  have hsingle := single_of_values p var v hp h
  obtain ⟨dir, hget⟩ := get_of_single p var ⟨field, none⟩ hp hsingle
  unfold get_into
  rw [hget]
  exact values_of_single p var hp hsingle

theorem get_into64_values (stack : Fin 12 → BitVec 32) (p : SndPcmHwParams) (n : Fin 12) (v : ℕ) (hp : Proper p)
    (h : values p (.interval n) = {v}) : values p (.interval n) = {(get_into64 stack p n).toNat} := by
  have hinto := get_into_values p (.interval n) (stack n) v hp h
  have hwide : (get_into64 stack p n).toNat = (get_into p (.interval n) (stack n)).toNat := by
    unfold get_into64 get_into
    exact BitVec.toNat_setWidth_of_le (by decide)
  rw [hwide]
  exact hinto

theorem take_hw_params_takenOver (stack : Fin 12 → BitVec 32) (pcm : SndPcm) (p : SndPcmHwParams) (hp : Proper p)
    (h : ∀ c ∈ choices, ∃ v, values p c.1 = {v}) : TakenOver (take_hw_params stack pcm p) p := by
  have hinto (var : Var) (field : BitVec 32) (hmem : (var, false) ∈ choices) :
      values p var = {(get_into p var field).toNat} := by
    obtain ⟨v, hv⟩ := h _ hmem
    exact get_into_values p var field v hp hv
  have hinto64 (n : Fin 12) (last : Bool) (hmem : (.interval n, last) ∈ choices) :
      values p (.interval n) = {(get_into64 stack p n).toNat} := by
    obtain ⟨v, hv⟩ := h _ hmem
    exact get_into64_values stack p n v hp hv
  exact
    { access := hinto (.mask SNDRV_PCM_HW_PARAM_ACCESS) _ (by simp [choices])
      format := hinto (.mask SNDRV_PCM_HW_PARAM_FORMAT) _ (by simp [choices])
      subformat := hinto (.mask SNDRV_PCM_HW_PARAM_SUBFORMAT) _ (by simp [choices])
      channels := hinto (.interval CHANNELS) _ (by simp [choices])
      rate := hinto (.interval RATE) _ (by simp [choices])
      period_time := hinto (.interval PERIOD_TIME) _ (by simp [choices])
      period_size := hinto64 PERIOD_SIZE false (by simp [choices])
      buffer_size := hinto64 BUFFER_SIZE true (by simp [choices]) }

/-- What is left to do after the ioctl leaves the configuration. -/
theorem snd_pcm_sw_params_takenOver (k : Kernel) (pcm : SndPcm) (sw : SndPcmSwParams) (p : SndPcmHwParams)
    (h : TakenOver pcm p) : TakenOver (snd_pcm_sw_params k pcm sw).2 p := by
  unfold snd_pcm_sw_params
  split_ifs <;>
    exact ⟨h.access, h.format, h.subformat, h.channels, h.rate, h.period_time, h.period_size, h.buffer_size⟩

theorem snd_pcm_prepare_takenOver (k : Kernel) (pcm : SndPcm) (p : SndPcmHwParams) (h : TakenOver pcm p) :
    TakenOver (snd_pcm_prepare k pcm).2 p := by
  unfold snd_pcm_prepare
  split_ifs <;>
    exact ⟨h.access, h.format, h.subformat, h.channels, h.rate, h.period_time, h.period_size, h.buffer_size⟩

theorem hw_refine_accepts (k : Kernel) (stack : Fin 12 → BitVec 32) (pcm pcm' : SndPcm)
    (params params' : SndPcmHwParams) (err : Int) (herr : 0 ≤ err)
    (hcall : _snd_pcm_hw_params k stack pcm params = some (err, pcm', params')) : (k.hw_refine params).1 = 0 := by
  unfold _snd_pcm_hw_params at hcall
  dsimp only at hcall
  split at hcall
  · obtain ⟨rfl, -⟩ := Prod.mk.inj (Option.some.inj hcall)
    omega
  · rename_i hnot
    change ¬ -((k.hw_refine params).1 : Int) < 0 at hnot
    omega

theorem _snd_pcm_hw_params_takenOver (k : Kernel) (stack : Fin 12 → BitVec 32) (pcm pcm' : SndPcm)
    (params chosen params' : SndPcmHwParams) (err : Int)
    (hchoose : snd_pcm_hw_params_choose k (snd_pcm_hw_refine k.hw_refine params).2 = some (0, chosen))
    (hset : Sound k.hw_params) (hchosen : Proper chosen) (hone : ∀ c ∈ choices, ∃ v, values chosen c.1 = {v})
    (herr : 0 ≤ err) (hcall : _snd_pcm_hw_params k stack pcm params = some (err, pcm', params')) :
    SubParams params' chosen ∧ TakenOver pcm' params' := by
  unfold _snd_pcm_hw_params at hcall
  dsimp only at hcall
  rw [hchoose, Option.bind_some] at hcall
  dsimp only at hcall
  split at hcall
  · rename_i hneg
    obtain ⟨rfl, -⟩ := Prod.mk.inj (Option.some.inj hcall)
    omega
  · split at hcall
    · obtain ⟨rfl, -⟩ := Prod.mk.inj (Option.some.inj hcall)
      omega
    · rename_i hzero
      obtain ⟨hsub, hproper⟩ := hset chosen hchosen (Decidable.not_not.mp hzero)
      obtain ⟨sw, -, hcall⟩ := Option.map_eq_some_iff.mp hcall
      have hkept (c : Var × Bool) (hc : c ∈ choices) : ∃ v, values (k.hw_params chosen).2 c.1 = {v} := by
        obtain ⟨v, hv⟩ := hone c hc
        exact ⟨v, values_kept chosen _ c.1 v hproper hsub hv⟩
      have htaken := take_hw_params_takenOver stack (snd_pcm_hw_free k pcm).2 _ hproper hkept
      split at hcall
      · obtain ⟨rfl, -⟩ := Prod.mk.inj hcall
        omega
      · obtain ⟨-, hcall⟩ := Prod.mk.inj hcall
        obtain ⟨rfl, rfl⟩ := Prod.mk.inj hcall
        exact ⟨hsub, snd_pcm_sw_params_takenOver k _ sw _ htaken⟩

/-- The stages of a call that succeeds: what is refined, what is chosen of it, and what is set. -/
theorem hw_params_stages (k : Kernel) (stack : Fin 12 → BitVec 32) (pcm pcm' : SndPcm)
    (params chosen params' : SndPcmHwParams) (hrefine : Sound k.hw_refine) (hset : Sound k.hw_params)
    (hp : Proper params)
    (hchoose : snd_pcm_hw_params_choose k (snd_pcm_hw_refine k.hw_refine params).2 = some (0, chosen))
    (hcall : snd_pcm_hw_params k stack pcm params = some (0, pcm', params')) :
    SubParams chosen params ∧ Picks k.hw_refine choices (k.hw_refine params).2 chosen ∧
      SubParams params' chosen ∧ TakenOver pcm' params' := by
  unfold snd_pcm_hw_params at hcall
  obtain ⟨⟨err, pcm₁, params₁⟩, hparams, hcall⟩ := Option.map_eq_some_iff.mp hcall
  dsimp only at hcall
  split at hcall
  · rename_i hneg
    obtain ⟨rfl, -⟩ := Prod.mk.inj hcall
    exact absurd hneg (Int.lt_irrefl 0)
  · rename_i hnonneg
    have herr : 0 ≤ err := Int.not_lt.mp hnonneg
    have haccepts := hw_refine_accepts k stack pcm pcm₁ params params₁ err herr hparams
    obtain ⟨hsub, hproper⟩ := hrefine params hp haccepts
    obtain ⟨r, hloop, houtcome⟩ := choose_loop_outcome k hrefine choices (k.hw_refine params).2 hproper
    have hloop' : choose_loop k choices (k.hw_refine params).2 = some (0, chosen) := hchoose
    obtain rfl := Option.some.inj (hloop'.symm.trans hloop)
    rcases houtcome with ⟨-, hpicks⟩ | ⟨q, hrefused, heq⟩
    · obtain ⟨hsub', hchosen⟩ := picks_sub hrefine choices _ chosen hproper hpicks
      obtain ⟨hpart, htaken⟩ := _snd_pcm_hw_params_takenOver k stack pcm pcm₁ params chosen params₁ err hchoose hset
        hchosen (fun c hc => picks_values hrefine choices _ chosen hpicks c.1 c.2 hc) herr hparams
      obtain ⟨-, hcall⟩ := Prod.mk.inj hcall
      obtain ⟨rfl, rfl⟩ := Prod.mk.inj hcall
      exact ⟨hsub'.trans hsub, hpicks, hpart, snd_pcm_prepare_takenOver k pcm₁ _ htaken⟩
    · have herrno := hrefused.errno
      obtain ⟨hret, -⟩ := Prod.mk.inj heq
      omega

end Salsa.Pcm
