import Salsa.HwParams.Params

/-!
# Setting up a PCM

`snd_pcm_open`, `snd_pcm_hw_params` and `snd_pcm_sw_params` on a host with 64-bit longs. The
status and control pages are mapped, so that the two pointers in them are fields here and
`_snd_pcm_sync_ptr` has nothing to do.
-/

namespace Salsa.Pcm

open HwParams

/-- `snd_pcm_uframes_t` -/
abbrev Uframes := BitVec 64

def LONG_MAX_U : Uframes := 0x7fffffffffffffff#64

inductive SndPcmStream where
  | playback
  | capture
deriving DecidableEq

structure SndPcmSwParams where
  tstamp_mode : BitVec 32
  period_step : BitVec 32
  sleep_min : BitVec 32
  avail_min : Uframes
  xfer_align : Uframes
  start_threshold : Uframes
  stop_threshold : Uframes
  silence_threshold : Uframes
  silence_size : Uframes
  boundary : Uframes
  tstamp_type : BitVec 32
deriving DecidableEq

def SndPcmSwParams.zero : SndPcmSwParams :=
  { tstamp_mode := 0, period_step := 0, sleep_min := 0, avail_min := 0, xfer_align := 0,
    start_threshold := 0, stop_threshold := 0, silence_threshold := 0, silence_size := 0,
    boundary := 0, tstamp_type := 0 }

def SND_PCM_TSTAMP_NONE : BitVec 32 := 0
def SND_PCM_ACCESS_MMAP_INTERLEAVED : BitVec 32 := 0
def SND_PCM_ACCESS_MMAP_NONINTERLEAVED : BitVec 32 := 1
def SND_PCM_ACCESS_MMAP_COMPLEX : BitVec 32 := 2

structure SndPcm where
  stream : SndPcmStream
  setup : Bool
  sw_params : SndPcmSwParams
  _access : BitVec 32
  format : BitVec 32
  subformat : BitVec 32
  channels : BitVec 32
  rate : BitVec 32
  period_size : Uframes
  period_time : BitVec 32
  boundary : Uframes
  buffer_size : Uframes
  /-- `mmap_status->hw_ptr` -/
  hw_ptr : Uframes
  /-- `mmap_control->appl_ptr` -/
  appl_ptr : Uframes
  /-- `mmap_control->avail_min` -/
  avail_min : Uframes
deriving DecidableEq

/-- What the kernel answers to the ioctls: an errno, 0 for success. -/
structure Kernel where
  hw_refine : HwRefine
  hw_free : Nat
  hw_params : SndPcmHwParams → Nat × SndPcmHwParams
  sw_params : SndPcmSwParams → Nat
  /-- The outcome of mapping the channel areas in `_snd_pcm_mmap`. -/
  mmap : Nat
  prepare : Nat

/-- What `snd_pcm_open` hands out: an object from `calloc`, with the pages mapped. -/
def snd_pcm_open (stream : SndPcmStream) : SndPcm :=
  { stream, setup := false, sw_params := .zero, _access := 0, format := 0, subformat := 0,
    channels := 0, rate := 0, period_size := 0, period_time := 0, boundary := 0, buffer_size := 0,
    hw_ptr := 0, appl_ptr := 0, avail_min := 1 }

/-! ## Software parameters -/

/-- The loop of `snd_pcm_sw_params_default`. A word that was doubled 64 times is 0 and stays 0,
so the loop that has not ended then (`none`) never ends. -/
def double_boundary (limit : Uframes) : Nat → Uframes → Option Uframes
  | 0, _ => none
  | n + 1, boundary =>
    if boundary * 2#64 ≤ limit then double_boundary limit n (boundary * 2#64) else some boundary

def snd_pcm_sw_params_default (pcm : SndPcm) : Option SndPcmSwParams :=
  (double_boundary (LONG_MAX_U - pcm.buffer_size) 64 pcm.buffer_size).map fun boundary =>
    { tstamp_mode := SND_PCM_TSTAMP_NONE, tstamp_type := pcm.sw_params.tstamp_type, period_step := 1,
      sleep_min := 0, avail_min := pcm.period_size, xfer_align := pcm.period_size,
      start_threshold := 1, stop_threshold := pcm.buffer_size, silence_threshold := 0,
      silence_size := 0, boundary }

def snd_pcm_sw_params (k : Kernel) (pcm : SndPcm) (params : SndPcmSwParams) : Int × SndPcm :=
  if ¬ pcm.setup then (-EBADFD, pcm)
  else if k.sw_params params ≠ 0 then (-(k.sw_params params : Int), pcm)
  else (0, { pcm with sw_params := params, avail_min := params.avail_min })

/-! ## Hardware parameters -/

def CHANNELS : Fin 12 := 2
def RATE : Fin 12 := 3
def PERIOD_TIME : Fin 12 := 4
def PERIOD_SIZE : Fin 12 := 5
def BUFFER_SIZE : Fin 12 := 9
def TICK_TIME : Fin 12 := 11

/-- `vars`, each with its flag `last`. -/
def choices : List (Var × Bool) :=
  [(.mask SNDRV_PCM_HW_PARAM_ACCESS, false), (.mask SNDRV_PCM_HW_PARAM_FORMAT, false),
    (.mask SNDRV_PCM_HW_PARAM_SUBFORMAT, false), (.interval CHANNELS, false), (.interval RATE, false),
    (.interval BUFFER_SIZE, true), (.interval PERIOD_SIZE, false), (.interval PERIOD_TIME, false),
    (.interval TICK_TIME, false)]

/-- `val` and `dir` are NULL here, so nothing is read back. -/
def choose_loop (k : Kernel) : List (Var × Bool) → SndPcmHwParams → Option (Int × SndPcmHwParams)
  | [], params => some (0, params)
  | (var, last) :: rest, params =>
    let chosen :=
      if last then _snd_pcm_hw_param_set_last k.hw_refine params var ⟨0, none⟩
      else _snd_pcm_hw_param_set_first k.hw_refine params var ⟨0, none⟩
    chosen.bind fun (err, params, _) => if err < 0 then some (err, params) else choose_loop k rest params

def snd_pcm_hw_params_choose (k : Kernel) (params : SndPcmHwParams) : Option (Int × SndPcmHwParams) :=
  choose_loop k choices params

/-- A getter into a field of the PCM, which keeps its value when the getter fails. -/
def get_into (params : SndPcmHwParams) (var : Var) (field : BitVec 32) : BitVec 32 :=
  (_snd_pcm_hw_param_get params var ⟨field, none⟩).2.val

/-- `_snd_pcm_hw_param_get64`: the local `_val` holds `stack` before, and goes into the field
in any case. -/
def get_into64 (stack : Fin 12 → BitVec 32) (params : SndPcmHwParams) (n : Fin 12) : Uframes :=
  (_snd_pcm_hw_param_get params (.interval n) ⟨stack n, none⟩).2.val.setWidth 64

def snd_pcm_hw_free (k : Kernel) (pcm : SndPcm) : Int × SndPcm :=
  if ¬ pcm.setup then (0, pcm)
  else if k.hw_free ≠ 0 then (-(k.hw_free : Int), pcm)
  else (0, { pcm with setup := false })

/-- The fields that `_snd_pcm_hw_params` takes over from the parameters. -/
def take_hw_params (stack : Fin 12 → BitVec 32) (pcm : SndPcm) (params : SndPcmHwParams) : SndPcm :=
  { pcm with
    setup := true
    _access := get_into params (.mask SNDRV_PCM_HW_PARAM_ACCESS) pcm._access
    format := get_into params (.mask SNDRV_PCM_HW_PARAM_FORMAT) pcm.format
    subformat := get_into params (.mask SNDRV_PCM_HW_PARAM_SUBFORMAT) pcm.subformat
    channels := get_into params (.interval CHANNELS) pcm.channels
    rate := get_into params (.interval RATE) pcm.rate
    period_time := get_into params (.interval PERIOD_TIME) pcm.period_time
    period_size := get_into64 stack params PERIOD_SIZE
    buffer_size := get_into64 stack params BUFFER_SIZE }

def is_mmap_access (access : BitVec 32) : Bool :=
  access == SND_PCM_ACCESS_MMAP_INTERLEAVED || access == SND_PCM_ACCESS_MMAP_NONINTERLEAVED
    || access == SND_PCM_ACCESS_MMAP_COMPLEX

/-- The results of `snd_pcm_hw_params_choose`, `snd_pcm_hw_free` and `snd_pcm_sw_params` are not
looked at. -/
def _snd_pcm_hw_params (k : Kernel) (stack : Fin 12 → BitVec 32) (pcm : SndPcm)
    (params : SndPcmHwParams) : Option (Int × SndPcm × SndPcmHwParams) :=
  let (err, params) := snd_pcm_hw_refine k.hw_refine params
  if err < 0 then some (err, pcm, params)
  else
    (snd_pcm_hw_params_choose k params).bind fun (_, params) =>
      let pcm := (snd_pcm_hw_free k pcm).2
      let (errno, params) := k.hw_params params
      if errno ≠ 0 then some (-(errno : Int), pcm, params)
      else
        let pcm := take_hw_params stack pcm params
        (snd_pcm_sw_params_default pcm).map fun sw =>
          let pcm := (snd_pcm_sw_params k pcm sw).2
          if is_mmap_access pcm._access ∧ k.mmap ≠ 0 then (-(k.mmap : Int), pcm, params)
          else (0, pcm, params)

/-- The kernel starts both pointers at 0. -/
def snd_pcm_prepare (k : Kernel) (pcm : SndPcm) : Int × SndPcm :=
  if k.prepare ≠ 0 then (-(k.prepare : Int), pcm) else (0, { pcm with hw_ptr := 0, appl_ptr := 0 })

def snd_pcm_hw_params (k : Kernel) (stack : Fin 12 → BitVec 32) (pcm : SndPcm)
    (params : SndPcmHwParams) : Option (Int × SndPcm × SndPcmHwParams) :=
  (_snd_pcm_hw_params k stack pcm params).map fun (err, pcm, params) =>
    if err < 0 then (err, pcm, params)
    else
      let (err, pcm) := snd_pcm_prepare k pcm
      (err, pcm, params)

/-! ## What set up leaves -/

theorem double_boundary_zero (limit : Uframes) (n : Nat) : double_boundary limit n 0#64 = none := by
  induction n with
  | zero => rfl
  | succ n ih =>
    have hzero : 0#64 * 2#64 = 0#64 := rfl
    unfold double_boundary
    rw [hzero, if_pos (BitVec.le_def.mpr (Nat.zero_le _))]
    exact ih

/-- Doubling stops in time: with one buffer on top, the boundary is still a positive long. -/
theorem double_boundary_le (size boundary result : Uframes) (n : Nat)
    (hfits : boundary.toNat + size.toNat ≤ LONG_MAX_U.toNat)
    (hresult : double_boundary (LONG_MAX_U - size) n boundary = some result) :
    boundary.toNat ≤ result.toNat ∧ result.toNat + size.toNat ≤ LONG_MAX_U.toNat := by
  have hlimit : (LONG_MAX_U - size).toNat = LONG_MAX_U.toNat - size.toNat :=
    BitVec.toNat_sub_of_le (BitVec.le_def.mpr (by omega))
  induction n generalizing boundary with
  | zero => simp [double_boundary] at hresult
  | succ n ih =>
    unfold double_boundary at hresult
    split at hresult
    · rename_i hle
      rw [BitVec.le_def, hlimit] at hle
      -- No bit is lost, since the boundary is at most `LONG_MAX`.
      have hdouble : (boundary * 2#64).toNat = boundary.toNat * 2 := by
        have : LONG_MAX_U.toNat = 2 ^ 63 - 1 := rfl
        rw [BitVec.toNat_mul, Nat.mod_eq_of_lt]
        · rfl
        · rw [show (2#64).toNat = 2 from rfl]
          omega
      obtain ⟨hmono, hsum⟩ := ih (boundary * 2#64) (by omega) hresult
      exact ⟨by omega, hsum⟩
    · simp only [Option.some.injEq] at hresult
      subst hresult
      exact ⟨Nat.le_refl _, hfits⟩

@[simp] theorem snd_pcm_hw_free_boundary (k : Kernel) (pcm : SndPcm) :
    (snd_pcm_hw_free k pcm).2.boundary = pcm.boundary := by
  unfold snd_pcm_hw_free
  split_ifs <;> rfl

@[simp] theorem snd_pcm_hw_free_stream (k : Kernel) (pcm : SndPcm) :
    (snd_pcm_hw_free k pcm).2.stream = pcm.stream := by
  unfold snd_pcm_hw_free
  split_ifs <;> rfl

@[simp] theorem snd_pcm_sw_params_boundary (k : Kernel) (pcm : SndPcm) (params : SndPcmSwParams) :
    (snd_pcm_sw_params k pcm params).2.boundary = pcm.boundary := by
  unfold snd_pcm_sw_params
  split_ifs <;> rfl

@[simp] theorem snd_pcm_prepare_boundary (k : Kernel) (pcm : SndPcm) :
    (snd_pcm_prepare k pcm).2.boundary = pcm.boundary := by
  unfold snd_pcm_prepare
  split_ifs <;> rfl

theorem get_into64_lt (stack : Fin 12 → BitVec 32) (params : SndPcmHwParams) (n : Fin 12) :
    (get_into64 stack params n).toNat < 2 ^ 32 := by
  unfold get_into64
  rw [BitVec.toNat_setWidth_of_le (by decide)]
  exact BitVec.isLt _

theorem _snd_pcm_hw_params_boundary (k : Kernel) (stack : Fin 12 → BitVec 32) (pcm pcm' : SndPcm)
    (params params' : SndPcmHwParams) (err : Int)
    (hcall : _snd_pcm_hw_params k stack pcm params = some (err, pcm', params')) :
    pcm'.boundary = pcm.boundary := by
  unfold _snd_pcm_hw_params at hcall
  dsimp only at hcall
  split at hcall
  · cases hcall
    rfl
  · obtain ⟨⟨ret, chosen⟩, -, hcall⟩ := Option.bind_eq_some_iff.mp hcall
    dsimp only at hcall
    split at hcall
    · cases hcall
      exact snd_pcm_hw_free_boundary k pcm
    · obtain ⟨sw, -, hcall⟩ := Option.map_eq_some_iff.mp hcall
      split at hcall <;> cases hcall <;>
        rw [snd_pcm_sw_params_boundary] <;> exact snd_pcm_hw_free_boundary k pcm

theorem snd_pcm_hw_params_boundary (k : Kernel) (stack : Fin 12 → BitVec 32) (pcm pcm' : SndPcm)
    (params params' : SndPcmHwParams) (err : Int)
    (hcall : snd_pcm_hw_params k stack pcm params = some (err, pcm', params')) :
    pcm'.boundary = pcm.boundary := by
  unfold snd_pcm_hw_params at hcall
  obtain ⟨⟨err₁, pcm₁, params₁⟩, hparams, hcall⟩ := Option.map_eq_some_iff.mp hcall
  have hkept := _snd_pcm_hw_params_boundary k stack pcm pcm₁ params params₁ err₁ hparams
  dsimp only at hcall
  split at hcall
  · cases hcall
    exact hkept
  · cases hcall
    exact (snd_pcm_prepare_boundary k pcm₁).trans hkept

/-- A PCM that was just set up, with what the kernel accepted of it. -/
structure SetUp (pcm : SndPcm) : Prop where
  hw_ptr : pcm.hw_ptr = 0#64
  appl_ptr : pcm.appl_ptr = 0#64
  size : 0 < pcm.buffer_size.toNat
  below : pcm.buffer_size.toNat ≤ pcm.sw_params.boundary.toNat
  fits : pcm.sw_params.boundary.toNat + pcm.buffer_size.toNat ≤ LONG_MAX_U.toNat

theorem snd_pcm_sw_params_default_boundary (pcm : SndPcm) (sw : SndPcmSwParams)
    (hsize : pcm.buffer_size.toNat < 2 ^ 32) (hsw : snd_pcm_sw_params_default pcm = some sw) :
    0 < pcm.buffer_size.toNat ∧ pcm.buffer_size.toNat ≤ sw.boundary.toNat ∧
      sw.boundary.toNat + pcm.buffer_size.toNat ≤ LONG_MAX_U.toNat := by
  obtain ⟨boundary, hboundary, rfl⟩ := Option.map_eq_some_iff.mp hsw
  have hmax : LONG_MAX_U.toNat = 2 ^ 63 - 1 := rfl
  have hpos : pcm.buffer_size ≠ 0#64 := by
    intro hzero
    rw [hzero, double_boundary_zero] at hboundary
    exact absurd hboundary (by simp)
  have hpos : pcm.buffer_size.toNat ≠ 0 := fun h => hpos (BitVec.eq_of_toNat_eq h)
  exact ⟨by omega, double_boundary_le pcm.buffer_size pcm.buffer_size boundary 64 (by omega) hboundary⟩

theorem _snd_pcm_hw_params_success (k : Kernel) (stack : Fin 12 → BitVec 32) (pcm pcm' : SndPcm)
    (params params' : SndPcmHwParams) (err : Int) (hk : ∀ sw, k.sw_params sw = 0) (herr : 0 ≤ err)
    (hcall : _snd_pcm_hw_params k stack pcm params = some (err, pcm', params')) :
    0 < pcm'.buffer_size.toNat ∧ pcm'.buffer_size.toNat ≤ pcm'.sw_params.boundary.toNat ∧
      pcm'.sw_params.boundary.toNat + pcm'.buffer_size.toNat ≤ LONG_MAX_U.toNat := by
  unfold _snd_pcm_hw_params at hcall
  dsimp only at hcall
  split at hcall
  · rename_i hrefine
    cases hcall
    exact absurd herr (by omega)
  · obtain ⟨⟨ret, chosen⟩, -, hcall⟩ := Option.bind_eq_some_iff.mp hcall
    dsimp only at hcall
    split at hcall
    · cases hcall
      omega
    · obtain ⟨sw, hsw, hcall⟩ := Option.map_eq_some_iff.mp hcall
      have hspec := snd_pcm_sw_params_default_boundary _ sw (get_into64_lt stack _ BUFFER_SIZE) hsw
      split at hcall
      · cases hcall
        omega
      · cases hcall
        -- `setup` is 1 here and the kernel accepts, so the parameters are taken over.
        unfold snd_pcm_sw_params
        rw [if_neg (by simp [take_hw_params]), if_neg (by simp [hk])]
        exact hspec

theorem snd_pcm_hw_params_setUp (k : Kernel) (stack : Fin 12 → BitVec 32) (pcm pcm' : SndPcm)
    (params params' : SndPcmHwParams) (hk : ∀ sw, k.sw_params sw = 0)
    (hcall : snd_pcm_hw_params k stack pcm params = some (0, pcm', params')) : SetUp pcm' := by
  unfold snd_pcm_hw_params at hcall
  obtain ⟨⟨err₁, pcm₁, params₁⟩, hparams, hcall⟩ := Option.map_eq_some_iff.mp hcall
  dsimp only at hcall
  split at hcall
  · rename_i hneg
    cases hcall
    exact absurd hneg (Int.lt_irrefl 0)
  · rename_i hnonneg
    obtain ⟨hsize, hbelow, hfits⟩ := _snd_pcm_hw_params_success k stack pcm pcm₁ params params₁
      err₁ hk (Int.not_lt.mp hnonneg) hparams
    simp only [Prod.mk.injEq, snd_pcm_prepare] at hcall
    obtain ⟨hret, rfl, -⟩ := hcall
    split at hret
    · rename_i hprepare
      simp only [neg_eq_zero, Int.natCast_eq_zero] at hret
      exact absurd hret hprepare
    · rename_i hprepare
      rw [if_neg hprepare]
      exact ⟨rfl, rfl, hsize, hbelow, hfits⟩

end Salsa.Pcm
