import Salsa.HwParams.Requests
import Salsa.Pcm.Choose

/-!
# From the requests to the PCM

A program starts with all that the hardware can do, asks for one thing after the other, and hands over what is left.
The PCM then has what each request that succeeded was promised.
-/

namespace Salsa.Pcm

open HwParams Run

/-- The fields of the PCM that are values of parameters. -/
def SndPcm.installed (pcm : SndPcm) : Var → Option ℕ
  | .mask m =>
    if m = SNDRV_PCM_HW_PARAM_ACCESS then some pcm._access.toNat
    else if m = SNDRV_PCM_HW_PARAM_FORMAT then some pcm.format.toNat
    else some pcm.subformat.toNat
  | .interval n =>
    if n = CHANNELS then some pcm.channels.toNat
    else if n = RATE then some pcm.rate.toNat
    else if n = PERIOD_TIME then some pcm.period_time.toNat
    else if n = PERIOD_SIZE then some pcm.period_size.toNat
    else if n = BUFFER_SIZE then some pcm.buffer_size.toNat
    else none

theorem TakenOver.installed {pcm : SndPcm} {p : SndPcmHwParams} (h : TakenOver pcm p) (var : Var) (u : ℕ)
    (hu : pcm.installed var = some u) : values p var = {u} := by
  cases var with
  | mask m =>
    have hall : ∀ m, m = SNDRV_PCM_HW_PARAM_ACCESS ∨ m = SNDRV_PCM_HW_PARAM_FORMAT ∨
        m = SNDRV_PCM_HW_PARAM_SUBFORMAT := by
      decide
    rcases hall m with rfl | rfl | rfl <;> cases hu
    · exact h.access
    · exact h.format
    · exact h.subformat
  | interval n =>
    unfold SndPcm.installed at hu
    dsimp only at hu
    split_ifs at hu with hchannels hrate htime hperiod hbuffer <;> subst n <;> cases hu
    · exact h.channels
    · exact h.rate
    · exact h.period_time
    · exact h.period_size
    · exact h.buffer_size

/-- A request that succeeded has its promise kept by the PCM. -/
def Honoured (pcm : SndPcm) (p : SndPcmHwParams) (c : Request.At) : Prop :=
  ∀ ret p', perform c.hw p c.request = some (ret, p') → 0 ≤ ret →
    ∀ u, pcm.installed c.request.var = some u → u ∈ c.promise p

theorem honoured_of_kept {pcm : SndPcm} {final params : SndPcmHwParams} (htaken : TakenOver pcm params)
    (hsub : SubParams params final) (p : SndPcmHwParams) (c : Request.At) (h : Kept final p c) :
    Honoured pcm p c := by
  intro ret p' hperform hret u hu
  apply h ret p' hperform hret
  apply values_mono final params c.request.var hsub
  rw [htaken.installed c.request.var u hu]
  rfl

/-- From `snd_pcm_hw_params_any` through any requests to `snd_pcm_hw_params`: where the kernel narrows what it
accepts and refuses nothing in the end, the PCM has for each request a value that it asked for or was told. -/
theorem session_honoured (k : Kernel) (stack : Fin 12 → BitVec 32) (pcm pcm' : SndPcm) (calls : List Request.At)
    (start params chosen params' : SndPcmHwParams) (hrefine : Sound k.hw_refine) (hset : Sound k.hw_params)
    (hany : snd_pcm_hw_params_any k.hw_refine = (0, start))
    (hallowed : AllSteps HwParams.step HwParams.Allowed start calls)
    (hrun : run HwParams.step start calls = some params)
    (hchoose : snd_pcm_hw_params_choose k (snd_pcm_hw_refine k.hw_refine params).2 = some (0, chosen))
    (hcall : snd_pcm_hw_params k stack pcm params = some (0, pcm', params')) :
    AllSteps HwParams.step (Honoured pcm') start calls := by
  obtain ⟨herr, rfl⟩ := Prod.mk.inj hany
  change -((k.hw_refine _snd_pcm_hw_params_any).1 : Int) = 0 at herr
  have hstart := (hrefine _ any_proper (by omega)).2
  obtain ⟨hproper, -, hkept⟩ := requests_kept _ params calls hstart hallowed hrun
  obtain ⟨hsub, -, hpart, htaken⟩ :=
    hw_params_stages k stack pcm pcm' params chosen params' hrefine hset hproper hchoose hcall
  have hall := hpart.trans hsub
  exact allSteps_mono _ _ _ _ (fun p c _ => honoured_of_kept htaken hall p c) hkept

/-! A rate and a format are asked for, as is a buffer size as near to 1000 as there is. -/

def requests : List Request.At :=
  [⟨willing.hw_refine, .set_near (.interval BUFFER_SIZE) ⟨1000#32, none⟩⟩,
    ⟨willing.hw_refine, .set (.interval RATE) 48000#32 0⟩,
    ⟨willing.hw_refine, .set (.mask SNDRV_PCM_HW_PARAM_FORMAT) 2#32 0⟩,
    ⟨willing.hw_refine, .set_max (.interval CHANNELS) ⟨2#32, none⟩⟩]

theorem requests_allowed : AllSteps HwParams.step HwParams.Allowed _snd_pcm_hw_params_any requests := by
  have hnear : NearInRange ⟨1000#32, none⟩ := by
    unfold NearInRange
    decide
  have hrate : SetInRange (.interval RATE) 48000#32 0 := by
    unfold SetInRange
    decide
  have hformat : SetInRange (.mask SNDRV_PCM_HW_PARAM_FORMAT) 2#32 0 := by
    unfold SetInRange
    decide
  have hchannels : MaxInRange (.interval CHANNELS) 2#32 0 := by
    unfold MaxInRange
    decide
  refine ⟨⟨willing_sound, hnear, ?_⟩, fun _ _ => ⟨⟨willing_sound, hrate, fun _ _ _ _ => trivial⟩, fun _ _ =>
    ⟨⟨willing_sound, hformat, fun _ _ _ _ => trivial⟩, fun _ _ =>
      ⟨⟨willing_sound, hchannels, fun _ _ _ _ => trivial⟩, fun _ _ => trivial⟩⟩⟩⟩
  intro ret p' hperform hret
  have hzero : (perform willing.hw_refine _snd_pcm_hw_params_any
      (.set_near (.interval BUFFER_SIZE) ⟨1000#32, none⟩)).map (fun r => r.1) = some 0 := by
    decide +kernel
  rw [hperform] at hzero
  obtain rfl : ret = 0 := Option.some.inj hzero
  exact absurd hret (by decide)

theorem session_honoured_requests : ∃ pcm',
    AllSteps HwParams.step (Honoured pcm') _snd_pcm_hw_params_any requests ∧ pcm'.rate = 48000#32 ∧
      pcm'.format = 2#32 ∧ pcm'.buffer_size = 1000#64 := by
  have hsession : ((run HwParams.step _snd_pcm_hw_params_any requests).bind fun params =>
      (snd_pcm_hw_params_choose willing params).bind fun chosen =>
        (snd_pcm_hw_params willing (fun _ => 0#32) (snd_pcm_open .playback) params).map fun r =>
          (chosen.1, r.1, r.2.1.rate, r.2.1.format, r.2.1.buffer_size)) =
      some (0, 0, 48000#32, 2#32, 1000#64) := by
    decide +kernel
  obtain ⟨params, hrun, hsession⟩ := Option.bind_eq_some_iff.mp hsession
  obtain ⟨⟨ret, chosen⟩, hchoose, hsession⟩ := Option.bind_eq_some_iff.mp hsession
  obtain ⟨⟨err, pcm', params'⟩, hcall, heq⟩ := Option.map_eq_some_iff.mp hsession
  simp only [Prod.mk.injEq] at heq
  obtain ⟨rfl, rfl, hrate, hformat, hbuffer⟩ := heq
  refine ⟨pcm', ?_, hrate, hformat, hbuffer⟩
  exact session_honoured willing _ _ pcm' requests _ params chosen params' willing_sound
    (fun p hp _ => ⟨SubParams.refl p, hp⟩) rfl requests_allowed hrun hchoose hcall

end Salsa.Pcm
