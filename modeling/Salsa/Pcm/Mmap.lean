import Salsa.Errno
import Salsa.Lib.Mappings
import Salsa.Pcm.Setup

/-!
# Mapping the channel areas

`_snd_pcm_mmap` and `_snd_pcm_munmap`, and the functions that call them, on a host with 64-bit longs. The
addresses are numbers, NULL is 0.
-/

namespace Salsa.Pcm.Areas

open HwParams Mappings

/-- `sysconf(_SC_PAGE_SIZE)` -/
abbrev PageSize := { p : Uframes // 0#64 < p }

def page_align (psz : PageSize) (size : Uframes) : Uframes :=
  let r := size % psz.val
  if r ≠ 0#64 then size + psz.val - r else size

structure SndrvPcmChannelInfo where
  channel : BitVec 32
  offset : BitVec 64
  first : BitVec 32
  step : BitVec 32
deriving DecidableEq

structure SndPcmChannelInfo where
  info : SndrvPcmChannelInfo
  addr : Nat
deriving DecidableEq

structure SndPcmChannelArea where
  addr : Nat
  first : BitVec 32
  step : BitVec 32
deriving DecidableEq

structure MmapPcm extends SndPcm where
  sample_bits : BitVec 32
  mmap_channels : Option (List SndPcmChannelInfo)
  running_areas : Option (List SndPcmChannelArea)
deriving DecidableEq

/-- What the system answers while areas are mapped and unmapped, channel by channel. -/
structure AreaAnswers where
  channels : Bool
  areas : Bool
  channel_info : Nat → Except Errno SndrvPcmChannelInfo
  mmap : Nat → Answer
  munmap : Nat → Option Errno

/-! ## Sizes -/

/-- The bits up to the end of the last sample. -/
def extent (buffer_size : Uframes) (sample_bits : BitVec 32) (i : SndPcmChannelInfo) : Uframes :=
  i.info.first.setWidth 64 + i.info.step.setWidth 64 * (buffer_size - 1#64) + sample_bits.setWidth 64

/-- The size of the mapping of `i` and of the channels after it that share it. -/
def group_size (psz : PageSize) (buffer_size : Uframes) (sample_bits : BitVec 32) (i : SndPcmChannelInfo)
    (shared : List SndPcmChannelInfo) : Uframes :=
  let size := shared.foldl (fun size i1 =>
    let s := extent buffer_size sample_bits i1
    if s > size then s else size) (extent buffer_size sample_bits i)
  page_align psz ((size + 7#64) / 8#64)

/-! ## Mapping -/

def CHANNEL_ZERO : SndPcmChannelInfo := ⟨⟨0, 0, 0, 0⟩, 0⟩
def AREA_ZERO : SndPcmChannelArea := ⟨0, 0, 0⟩

/-- The loop over `SNDRV_PCM_IOCTL_CHANNEL_INFO`. -/
def info_loop (o : AreaAnswers) : Nat → List SndPcmChannelInfo → Int × List SndPcmChannelInfo
  | _, [] => (0, [])
  | c, i :: rest =>
    match o.channel_info c with
    | .error e => (Errno.neg e, { i with info := { i.info with channel := BitVec.ofNat 32 c } } :: rest)
    | .ok info =>
      let (err, rest) := info_loop o (c + 1) rest
      (err, { i with info } :: rest)

def area (i : SndPcmChannelInfo) : SndPcmChannelArea := ⟨i.addr, i.info.first, i.info.step⟩

/-- The channels after `i` with its offset get its address. -/
def share_addr (i : SndPcmChannelInfo) (rest : List SndPcmChannelInfo) : List SndPcmChannelInfo :=
  rest.map fun i1 => if i1.info.offset = i.info.offset then { i1 with addr := i.addr } else i1

/-- The loop of `_snd_pcm_mmap` from channel `c` on, with `n` channels to come. -/
def mmap_loop (psz : PageSize) (buffer_size : Uframes) (sample_bits : BitVec 32) (o : AreaAnswers) :
    Nat → Nat → List SndPcmChannelInfo → Space → Int × List SndPcmChannelInfo × List SndPcmChannelArea × Space
  | n + 1, c, i :: rest, maps =>
    if i.addr ≠ 0 then
      let (err, channels, areas, maps) := mmap_loop psz buffer_size sample_bits o n (c + 1) rest maps
      (err, i :: channels, area i :: areas, maps)
    else
      let size := group_size psz buffer_size sample_bits i (rest.filter fun i1 => i1.info.offset = i.info.offset)
      match Mappings.mmap (o.mmap c) ⟨size, i.info.offset⟩ maps with
      | .error e => (Errno.neg e, i :: rest, List.replicate (n + 1) AREA_ZERO, maps)
      | .ok (addr, maps) =>
        let i := { i with addr }
        let (err, channels, areas, maps) := mmap_loop psz buffer_size sample_bits o n (c + 1) (share_addr i rest) maps
        (err, i :: channels, area i :: areas, maps)
  | _, _, channels, maps => (0, channels, [], maps)

/-! ## Unmapping -/

/-- The channels after `i` with its address lose it. -/
def clear_addr (i : SndPcmChannelInfo) (rest : List SndPcmChannelInfo) : List SndPcmChannelInfo :=
  rest.map fun i1 => if i1.addr = i.addr then { i1 with addr := 0 } else i1

def munmap_loop (psz : PageSize) (buffer_size : Uframes) (sample_bits : BitVec 32) (o : AreaAnswers) :
    Nat → Nat → List SndPcmChannelInfo → Space → Int × List SndPcmChannelInfo × Space
  | n + 1, c, i :: rest, maps =>
    if i.addr = 0 then
      let (err, channels, maps) := munmap_loop psz buffer_size sample_bits o n (c + 1) rest maps
      (err, i :: channels, maps)
    else
      let size := group_size psz buffer_size sample_bits i (rest.filter fun i1 => i1.addr = i.addr)
      match o.munmap c with
      | some e => (Errno.neg e, i :: clear_addr i rest, maps)
      | none =>
        let (err, channels, maps) :=
          munmap_loop psz buffer_size sample_bits o n (c + 1) (clear_addr i rest) (Mappings.munmap i.addr size maps)
        (err, { i with addr := 0 } :: channels, maps)
  | _, _, channels, maps => (0, channels, maps)

def _snd_pcm_munmap (psz : PageSize) (o : AreaAnswers) (pcm : MmapPcm) (maps : Space) : Int × MmapPcm × Space :=
  match pcm.mmap_channels with
  | none => (0, pcm, maps)
  | some channels =>
    let (err, channels, maps) :=
      munmap_loop psz pcm.buffer_size pcm.sample_bits o pcm.channels.toNat 0 channels maps
    if err < 0 then (err, { pcm with mmap_channels := some channels }, maps)
    else (0, { pcm with mmap_channels := none, running_areas := none }, maps)

def _snd_pcm_mmap (psz : PageSize) (o : AreaAnswers) (pcm : MmapPcm) (maps : Space) : Int × MmapPcm × Space :=
  let (_, pcm, maps) := _snd_pcm_munmap psz o pcm maps
  let n := pcm.channels.toNat
  if ¬ o.channels then (-ENOMEM, { pcm with mmap_channels := none }, maps)
  else if ¬ o.areas then (-ENOMEM, { pcm with mmap_channels := none, running_areas := none }, maps)
  else
    let areas := List.replicate n AREA_ZERO
    let (err, channels) := info_loop o 0 (List.replicate n CHANNEL_ZERO)
    if err < 0 then (err, { pcm with mmap_channels := some channels, running_areas := some areas }, maps)
    else
      let (err, channels, areas, maps) := mmap_loop psz pcm.buffer_size pcm.sample_bits o n 0 channels maps
      (err, { pcm with mmap_channels := some channels, running_areas := some areas }, maps)

/-! ## Callers -/

/-- The column `phys` of `_snd_pcm_formats`. -/
def formats_phys : List Int :=
  [8, 8, 16, 16, 16, 16, 32, 32, 32, 32, 32, 32, 32, 32, 32, 32, 64, 64, 32, 32, 8, 8, 4,
    -EINVAL, -EINVAL, -EINVAL, -EINVAL, -EINVAL, -EINVAL, -EINVAL, -EINVAL, -EINVAL,
    24, 24, 24, 24, 24, 24, 24, 24, 24, 24, 24, 24, 3, 0, 5, 0, 8, 16, 32, 16, 32]

/-- A format above the last reads what lies behind the table. -/
def snd_pcm_format_physical_width (behind : Nat → Int) (format : BitVec 32) : Int :=
  formats_phys.getD format.toNat (behind format.toNat)

/-- The outcome `mmap` of the kernel is not asked for here. -/
def snd_pcm_hw_free (psz : PageSize) (k : Kernel) (o : AreaAnswers) (pcm : MmapPcm) (maps : Space) :
    Int × MmapPcm × Space :=
  if ¬ pcm.setup then (0, pcm, maps)
  else
    let (_, pcm, maps) := _snd_pcm_munmap psz o pcm maps
    if k.hw_free ≠ 0 then (-(k.hw_free : Int), pcm, maps)
    else (0, { pcm with setup := false }, maps)

def take_hw_params (behind : Nat → Int) (stack : Fin 12 → BitVec 32) (pcm : MmapPcm) (params : SndPcmHwParams) :
    MmapPcm :=
  let taken := Pcm.take_hw_params stack pcm.toSndPcm params
  { pcm with
    toSndPcm := taken
    sample_bits := BitVec.ofInt 32 (snd_pcm_format_physical_width behind taken.format) }

/-- The end of `_snd_pcm_hw_params`, where the access is one of the three with `mmap`. -/
def map_areas (psz : PageSize) (o : AreaAnswers) (pcm : MmapPcm) (maps : Space) : Int × MmapPcm × Space :=
  if is_mmap_access pcm._access then
    let (err, pcm, maps) := _snd_pcm_mmap psz o pcm maps
    if err < 0 then
      let (_, pcm, maps) := _snd_pcm_munmap psz o pcm maps
      (err, pcm, maps)
    else (0, pcm, maps)
  else (0, pcm, maps)

def _snd_pcm_hw_params (psz : PageSize) (behind : Nat → Int) (k : Kernel) (o : AreaAnswers)
    (stack : Fin 12 → BitVec 32) (pcm : MmapPcm) (maps : Space) (params : SndPcmHwParams) :
    Option (Int × MmapPcm × Space × SndPcmHwParams) :=
  let (err, params) := snd_pcm_hw_refine k.hw_refine params
  if err < 0 then some (err, pcm, maps, params)
  else
    (snd_pcm_hw_params_choose k params).bind fun (_, params) =>
      let (_, pcm, maps) := snd_pcm_hw_free psz k o pcm maps
      let (errno, params) := k.hw_params params
      if errno ≠ 0 then some (-(errno : Int), pcm, maps, params)
      else
        let pcm := take_hw_params behind stack pcm params
        (snd_pcm_sw_params_default pcm.toSndPcm).map fun sw =>
          let pcm := { pcm with toSndPcm := (snd_pcm_sw_params k pcm.toSndPcm sw).2 }
          let (err, pcm, maps) := map_areas psz o pcm maps
          (err, pcm, maps, params)

def snd_pcm_hw_params (psz : PageSize) (behind : Nat → Int) (k : Kernel) (o : AreaAnswers)
    (stack : Fin 12 → BitVec 32) (pcm : MmapPcm) (maps : Space) (params : SndPcmHwParams) :
    Option (Int × MmapPcm × Space × SndPcmHwParams) :=
  (_snd_pcm_hw_params psz behind k o stack pcm maps params).map fun (err, pcm, maps, params) =>
    if err < 0 then (err, pcm, maps, params)
    else
      let (err, prepared) := snd_pcm_prepare k pcm.toSndPcm
      (err, { pcm with toSndPcm := prepared }, maps, params)

/-- What `snd_pcm_close` leaves of the mappings. -/
def snd_pcm_close (psz : PageSize) (k : Kernel) (o : AreaAnswers) (pcm : MmapPcm) (maps : Space) : Space :=
  let (pcm, maps) := if pcm.setup then (snd_pcm_hw_free psz k o pcm maps).2 else (pcm, maps)
  (_snd_pcm_munmap psz o pcm maps).2.2

/-! ## The PCM without its areas -/

@[simp] theorem munmap_toSndPcm (psz : PageSize) (o : AreaAnswers) (pcm : MmapPcm) (maps : Space) :
    (_snd_pcm_munmap psz o pcm maps).2.1.toSndPcm = pcm.toSndPcm := by
  unfold _snd_pcm_munmap
  split
  · rfl
  · dsimp only
    split_ifs <;> rfl

@[simp] theorem mmap_toSndPcm (psz : PageSize) (o : AreaAnswers) (pcm : MmapPcm) (maps : Space) :
    (_snd_pcm_mmap psz o pcm maps).2.1.toSndPcm = pcm.toSndPcm := by
  unfold _snd_pcm_mmap
  dsimp only
  split_ifs <;> exact munmap_toSndPcm psz o pcm maps

theorem hw_free_toSndPcm (psz : PageSize) (k : Kernel) (o : AreaAnswers) (pcm : MmapPcm) (maps : Space) :
    (snd_pcm_hw_free psz k o pcm maps).2.1.toSndPcm = (Pcm.snd_pcm_hw_free k pcm.toSndPcm).2 := by
  have hkept := munmap_toSndPcm psz o pcm maps
  unfold snd_pcm_hw_free Pcm.snd_pcm_hw_free
  generalize _snd_pcm_munmap psz o pcm maps = result at hkept ⊢
  obtain ⟨err, unmapped, left⟩ := result
  have hkept : unmapped.toSndPcm = pcm.toSndPcm := hkept
  split_ifs
  · exact hkept
  · show { unmapped.toSndPcm with setup := false } = _
    rw [hkept]
  · rfl

theorem map_areas_toSndPcm (psz : PageSize) (o : AreaAnswers) (pcm : MmapPcm) (maps : Space) :
    (map_areas psz o pcm maps).2.1.toSndPcm = pcm.toSndPcm := by
  unfold map_areas
  split
  · dsimp only
    split
    · exact (munmap_toSndPcm psz o _ _).trans (mmap_toSndPcm psz o pcm maps)
    · exact mmap_toSndPcm psz o pcm maps
  · rfl

theorem map_areas_err (psz : PageSize) (o : AreaAnswers) (pcm : MmapPcm) (maps : Space) :
    (map_areas psz o pcm maps).1 ≤ 0 ∧ ((map_areas psz o pcm maps).1 < 0 → is_mmap_access pcm._access) := by
  unfold map_areas
  split
  · rename_i haccess
    dsimp only
    split
    · rename_i herr
      exact ⟨Int.le_of_lt herr, fun _ => haccess⟩
    · exact ⟨Int.le_refl 0, fun _ => haccess⟩
  · exact ⟨Int.le_refl 0, fun h => absurd h (Int.lt_irrefl 0)⟩

theorem choose_loop_congr (k : Kernel) (mmap : Nat) (vars : List (Var × Bool)) (params : SndPcmHwParams) :
    choose_loop { k with mmap } vars params = choose_loop k vars params := by
  induction vars generalizing params with
  | nil => rfl
  | cons v vars ih =>
    unfold choose_loop
    simp only [ih]

/-- The areas aside, the call is the one that takes the outcome of mapping them as given. -/
theorem hw_params_toSndPcm (psz : PageSize) (behind : Nat → Int) (k : Kernel) (o : AreaAnswers)
    (stack : Fin 12 → BitVec 32) (pcm : MmapPcm) (maps : Space) (params : SndPcmHwParams) : ∃ mmap,
    (_snd_pcm_hw_params psz behind k o stack pcm maps params).map (fun r => (r.1, r.2.1.toSndPcm, r.2.2.2)) =
      Pcm._snd_pcm_hw_params { k with mmap } stack pcm.toSndPcm params := by
  unfold _snd_pcm_hw_params Pcm._snd_pcm_hw_params snd_pcm_hw_params_choose
  simp only [choose_loop_congr]
  generalize snd_pcm_hw_refine k.hw_refine params = result
  obtain ⟨err, refined⟩ := result
  dsimp only
  split_ifs
  · exact ⟨0, rfl⟩
  cases choose_loop k choices refined with
  | none => exact ⟨0, rfl⟩
  | some chosen =>
    have hfree := hw_free_toSndPcm psz k o pcm maps
    generalize snd_pcm_hw_free psz k o pcm maps = result at hfree ⊢
    obtain ⟨_, freed, left⟩ := result
    have hfree : freed.toSndPcm = (Pcm.snd_pcm_hw_free k pcm.toSndPcm).2 := hfree
    simp only [Option.bind_some]
    split_ifs
    · refine ⟨0, ?_⟩
      simp only [Option.map_some, hfree]
      rfl
    have htaken : (take_hw_params behind stack freed (k.hw_params chosen.2).2).toSndPcm =
        Pcm.take_hw_params stack (Pcm.snd_pcm_hw_free k pcm.toSndPcm).2 (k.hw_params chosen.2).2 := by
      rw [← hfree]
      rfl
    generalize take_hw_params behind stack freed (k.hw_params chosen.2).2 = taken at htaken ⊢
    have hmap : ∀ mmap, Pcm.snd_pcm_hw_free { k with mmap } = Pcm.snd_pcm_hw_free k := fun _ => rfl
    simp only [hmap, ← htaken]
    cases snd_pcm_sw_params_default taken.toSndPcm with
    | none => exact ⟨0, rfl⟩
    | some sw =>
      have hsw : ∀ mmap, snd_pcm_sw_params { k with mmap } = snd_pcm_sw_params k := fun _ => rfl
      simp only [Option.map_some, hsw]
      generalize hset : ({ taken with toSndPcm := (snd_pcm_sw_params k taken.toSndPcm sw).2 } : MmapPcm) = set
      have hset : set.toSndPcm = (snd_pcm_sw_params k taken.toSndPcm sw).2 := hset ▸ rfl
      rw [← hset]
      have hmapped := map_areas_toSndPcm psz o set left
      obtain ⟨hle, haccess⟩ := map_areas_err psz o set left
      generalize map_areas psz o set left = result at hmapped hle haccess ⊢
      obtain ⟨err, mapped, maps1⟩ := result
      -- The outcome to be given is the error of the mapping.
      refine ⟨(-err).toNat, ?_⟩
      have hval : -((-err).toNat : Int) = err := by
        rw [Int.toNat_of_nonneg (Int.neg_nonneg_of_nonpos hle), Int.neg_neg]
      rw [hval, hmapped]
      split
      · rfl
      · rename_i hnot
        have hzero : err = 0 := by
          by_contra hne
          have hneg : err < 0 := lt_of_le_of_ne hle hne
          exact hnot ⟨haccess hneg, by omega⟩
        rw [hzero]

end Salsa.Pcm.Areas
