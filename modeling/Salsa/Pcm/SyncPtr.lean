import Salsa.Pcm.Ring
import Salsa.Lib.CInt
import Salsa.Lib.Lockstep

/-!
# Pages and their substitute

The status and control pages of a PCM are mapped from the device. Where they cannot be, the library keeps a
copy of them, which `_snd_pcm_sync_ptr` exchanges with the kernel.
-/

namespace Salsa.Pcm.SyncPtr

open CInt Lockstep

def EINTR : Nat := 4
def EPIPE : Int := 32
def ESTRPIPE : Int := 86

def SNDRV_PCM_SYNC_PTR_HWSYNC : BitVec 32 := 1#32
def SNDRV_PCM_SYNC_PTR_APPL : BitVec 32 := 2#32
def SNDRV_PCM_SYNC_PTR_AVAIL_MIN : BitVec 32 := 4#32

/-- `snd_pcm_state_t` -/
inductive SndPcmState where
  | open_
  | setup
  | prepared
  | running
  | xrun
  | draining
  | paused
  | suspended
  | disconnected
deriving DecidableEq

/-- The number of the state. -/
def SndPcmState.toInt : SndPcmState → Int
  | open_ => 0
  | setup => 1
  | prepared => 2
  | running => 3
  | xrun => 4
  | draining => 5
  | paused => 6
  | suspended => 7
  | disconnected => 8

/-- What the library reads of `struct snd_pcm_mmap_status`. -/
structure Status where
  state : SndPcmState
  hw_ptr : Uframes
deriving DecidableEq

/-- `struct snd_pcm_mmap_control` -/
structure Control where
  appl_ptr : Uframes
  avail_min : Uframes
deriving DecidableEq

/-- `struct snd_pcm_sync_ptr` -/
structure SndPcmSyncPtr where
  flags : BitVec 32
  status : Status
  control : Control
deriving DecidableEq

/-- The ioctls for frames. -/
inductive Xfer where
  | writei
  | writen
  | readi
  | readn
deriving DecidableEq

inductive Request where
  | hwsync
  | delay
  | prepare
  | reset
  | start
  | drop
  | drain
  | xrun
  | resume
  | pause (enable : Int)
  | rewind (frames : Uframes)
  | forward (frames : Uframes)
  | xfer (x : Xfer) (buffer : Nat) (frames : Uframes)
  | sw_params (params : SndPcmSwParams)
deriving DecidableEq

/-- The device, with states `κ` and events `ι` that move the hardware. An ioctl returns an errno, 0 for
success, and the number that it leaves in its argument. -/
structure Device (κ ι : Type) where
  status : κ → Status
  control : κ → Control
  /-- The control page is written to. -/
  store : Control → κ → κ
  tick : ι → κ → κ
  ioctl : Request → κ → Nat × Uframes × κ
  /-- `SNDRV_PCM_IOCTL_SYNC_PTR` -/
  sync_ptr : SndPcmSyncPtr → κ → Nat × SndPcmSyncPtr × κ

/-- A PCM on its device. The pages are mapped if there is no `sync_ptr`. -/
structure State (κ : Type) where
  pcm : SndPcm
  sync_ptr : Option SndPcmSyncPtr
  kernel : κ
  /-- Whether the kernel has refused an exchange. Nothing looks at this. -/
  refused : Bool

section Calls

variable {κ ι : Type} (D : Device κ ι)

/-- An exchange, as it is documented: what the flags do not name goes from the copy to the kernel. -/
def synced (p : SndPcmSyncPtr) (k : κ) : Nat × SndPcmSyncPtr × κ :=
  let (errno, k) :=
    if p.flags &&& SNDRV_PCM_SYNC_PTR_HWSYNC ≠ 0#32 then
      let (errno, _, k) := D.ioctl .hwsync k
      (errno, k)
    else (0, k)
  if errno ≠ 0 then (errno, p, k)
  else
    let appl_ptr :=
      if p.flags &&& SNDRV_PCM_SYNC_PTR_APPL ≠ 0#32 then (D.control k).appl_ptr else p.control.appl_ptr
    let avail_min :=
      if p.flags &&& SNDRV_PCM_SYNC_PTR_AVAIL_MIN ≠ 0#32 then (D.control k).avail_min else p.control.avail_min
    let k := D.store ⟨appl_ptr, avail_min⟩ k
    (0, { p with status := D.status k, control := ⟨appl_ptr, avail_min⟩ }, k)

/-- `pcm->mmap_status` points to the page or to the copy. -/
def mmap_status (s : State κ) : Status :=
  match s.sync_ptr with
  | some p => p.status
  | none => D.status s.kernel

def mmap_control (s : State κ) : Control :=
  match s.sync_ptr with
  | some p => p.control
  | none => D.control s.kernel

def set_mmap_control (s : State κ) (control : Control) : State κ :=
  match s.sync_ptr with
  | some p => { s with sync_ptr := some { p with control } }
  | none => { s with kernel := D.store control s.kernel }

/-- The PCM with the pointers that it sees. -/
def view (s : State κ) : SndPcm :=
  { s.pcm with
    hw_ptr := (mmap_status D s).hw_ptr
    appl_ptr := (mmap_control D s).appl_ptr
    avail_min := (mmap_control D s).avail_min }

def ioctl (s : State κ) (request : Request) : Int × Uframes × State κ :=
  let (errno, result, kernel) := D.ioctl request s.kernel
  (-(errno : Int), result, { s with kernel })

/-- Time passes. -/
def tick (s : State κ) (i : ι) : State κ := { s with kernel := D.tick i s.kernel }

def _snd_pcm_sync_ptr (s : State κ) (flags : BitVec 32) : Int × State κ :=
  match s.sync_ptr with
  | none => (0, s)
  | some p =>
    let p := { p with flags }
    let (errno, p', kernel) := D.sync_ptr p s.kernel
    (-(errno : Int), { s with sync_ptr := some p', kernel, refused := s.refused || errno != (synced D p s.kernel).1 })

def snd_pcm_state (s : State κ) : SndPcmState × State κ :=
  let (_, s) := _snd_pcm_sync_ptr D s SNDRV_PCM_SYNC_PTR_APPL
  ((mmap_status D s).state, s)

def _snd_pcm_hwsync (s : State κ) : Int × State κ :=
  if s.sync_ptr.isSome then _snd_pcm_sync_ptr D s SNDRV_PCM_SYNC_PTR_HWSYNC
  else
    let (err, _, s) := ioctl D s .hwsync
    (err, s)

/-- What `snd_pcm_drop`, `snd_pcm_drain`, `snd_pcm_pause` and `snd_pcm_resume` share. -/
def plain (s : State κ) (request : Request) : Int × State κ :=
  let (err, _, s) := ioctl D s request
  (err, s)

def snd_pcm_drop (s : State κ) : Int × State κ := plain D s .drop
def snd_pcm_drain (s : State κ) : Int × State κ := plain D s .drain
def snd_pcm_pause (s : State κ) (enable : Int) : Int × State κ := plain D s (.pause enable)
def snd_pcm_resume (s : State κ) : Int × State κ := plain D s .resume

/-- What `snd_pcm_prepare` and `snd_pcm_reset` share. -/
def then_sync (s : State κ) (request : Request) : Int × State κ :=
  let (err, _, s) := ioctl D s request
  if err < 0 then (err, s) else _snd_pcm_sync_ptr D s SNDRV_PCM_SYNC_PTR_APPL

def snd_pcm_prepare (s : State κ) : Int × State κ := then_sync D s .prepare
def snd_pcm_reset (s : State κ) : Int × State κ := then_sync D s .reset

def snd_pcm_start (s : State κ) : Int × State κ :=
  let (_, s) := _snd_pcm_sync_ptr D s 0#32
  let (err, _, s) := ioctl D s .start
  (err, s)

/-- What `snd_pcm_rewind` and `snd_pcm_forward` share. -/
def move_appl_ptr (s : State κ) (frames : Uframes) (request : Request) : Int × State κ :=
  if frames = 0#64 then (0, s)
  else
    let (err, frames, s) := ioctl D s request
    if err < 0 then (err, s)
    else
      let (_, s) := _snd_pcm_sync_ptr D s SNDRV_PCM_SYNC_PTR_APPL
      (frames.toInt, s)

def snd_pcm_rewind (s : State κ) (frames : Uframes) : Int × State κ := move_appl_ptr D s frames (.rewind frames)
def snd_pcm_forward (s : State κ) (frames : Uframes) : Int × State κ := move_appl_ptr D s frames (.forward frames)

def correct_pcm_error (s : State κ) (err : Int) : Int × State κ :=
  let (state, s) := snd_pcm_state D s
  match state with
  | .xrun => (-EPIPE, s)
  | .suspended => (-ESTRPIPE, s)
  | .disconnected => (-ENODEV, s)
  | _ => (err, s)

def snd_pcm_check_error (s : State κ) (err : Int) : Int × State κ :=
  if err = -(EINTR : Int) then correct_pcm_error D s err else (err, s)

/-- What the four functions for frames share; time passes before an error is looked at. -/
def transfer (s : State κ) (x : Xfer) (buffer : Nat) (size : Uframes) (meanwhile : ι) : Int × State κ :=
  let (err, result, s) := ioctl D s (.xfer x buffer size)
  let s := tick D s meanwhile
  if err < 0 then snd_pcm_check_error D s err
  else
    let (_, s) := _snd_pcm_sync_ptr D s SNDRV_PCM_SYNC_PTR_APPL
    (result.toInt, s)

def snd_pcm_writei (s : State κ) (buffer : Nat) (size : Uframes) (meanwhile : ι) : Int × State κ :=
  transfer D s .writei buffer size meanwhile

def snd_pcm_writen (s : State κ) (bufs : Nat) (size : Uframes) (meanwhile : ι) : Int × State κ :=
  transfer D s .writen bufs size meanwhile

def snd_pcm_readi (s : State κ) (buffer : Nat) (size : Uframes) (meanwhile : ι) : Int × State κ :=
  transfer D s .readi buffer size meanwhile

def snd_pcm_readn (s : State κ) (bufs : Nat) (size : Uframes) (meanwhile : ι) : Int × State κ :=
  transfer D s .readn bufs size meanwhile

/-- Time passes between the distance and the state. -/
def snd_pcm_avail_update (s : State κ) (meanwhile : ι) : Int × State κ :=
  let (_, s) := _snd_pcm_sync_ptr D s 0#32
  let avail := snd_pcm_mmap_avail (view D s)
  let (state, s) := snd_pcm_state D (tick D s meanwhile)
  match state with
  | .running =>
    if avail ≥ s.pcm.sw_params.stop_threshold then
      let (err, _, s) := ioctl D s .xrun
      if err < 0 then (err, s) else (-EPIPE, s)
    else (avail.toInt, s)
  | .xrun => (-EPIPE, s)
  | _ => (avail.toInt, s)

def snd_pcm_avail (s : State κ) (before meanwhile : ι) : Int × State κ :=
  let (err, s) := _snd_pcm_hwsync D s
  if err < 0 then (err, s) else snd_pcm_avail_update D (tick D s before) meanwhile

def snd_pcm_mmap_commit (s : State κ) (offset frames : Uframes) : Int × State κ :=
  let (_, pcm) := Pcm.snd_pcm_mmap_commit (view D s) offset frames
  let s := set_mmap_control D s { mmap_control D s with appl_ptr := pcm.appl_ptr }
  let (_, s) := _snd_pcm_sync_ptr D s 0#32
  (frames.toInt, s)

def snd_pcm_sw_params (s : State κ) (params : SndPcmSwParams) : Int × State κ :=
  if ¬ s.pcm.setup then (-EBADFD, s)
  else
    let (err, _, s) := ioctl D s (.sw_params params)
    if err < 0 then (err, s)
    else
      let s := { s with pcm := { s.pcm with sw_params := params } }
      (0, set_mmap_control D s { mmap_control D s with avail_min := params.avail_min })

/-! ## Opening -/

/-- How the two mappings and the allocation turn out. -/
structure Answers where
  status : Bool
  control : Bool
  calloc : Bool

def cleared : SndPcmSyncPtr := ⟨0#32, ⟨.open_, 0#64⟩, ⟨0#64, 0#64⟩⟩

/-- The copy comes into being zeroed; without a page the other one is not used either. -/
def snd_pcm_hw_mmap_status (o : Answers) (pcm : SndPcm) (kernel : κ) : Int × State κ :=
  let s : State κ := ⟨pcm, none, kernel, false⟩
  if o.status ∧ o.control then (0, set_mmap_control D s { mmap_control D s with avail_min := 1#64 })
  else if ¬ o.calloc then (-ENOMEM, s)
  else
    let s := { s with sync_ptr := some cleared }
    let s := set_mmap_control D s { mmap_control D s with avail_min := 1#64 }
    let (_, s) := _snd_pcm_sync_ptr D s 0#32
    (0, s)

end Calls

/-! ## Runs -/

inductive Call (ι : Type) where
  | state
  | hwsync
  | avail (before meanwhile : ι)
  | avail_update (meanwhile : ι)
  | delay
  | avail_delay (between meanwhile : ι)
  | prepare
  | reset
  | start
  | drop
  | drain
  | pause (enable : Int)
  | resume
  | rewind (frames : Uframes)
  | forward (frames : Uframes)
  | writei (buffer : Nat) (size : Uframes) (meanwhile : ι)
  | writen (bufs : Nat) (size : Uframes) (meanwhile : ι)
  | readi (buffer : Nat) (size : Uframes) (meanwhile : ι)
  | readn (bufs : Nat) (size : Uframes) (meanwhile : ι)
  | sw_params (params : SndPcmSwParams)
  | commit (offset frames : Uframes)
  | begin (frames : Uframes)
  | forwardable
  | rewindable
  /-- Time passes between two calls. -/
  | wait (i : ι)

/-- What a call returns, and what it leaves where its arguments point to. -/
structure Returned where
  ret : Int
  out : List Uframes
deriving DecidableEq

/-- The calls that only look at the pointers, and what they return. -/
def reading {ι : Type} (pcm : SndPcm) : Call ι → Option Returned
  | .begin frames => (snd_pcm_mmap_begin pcm frames).map fun r => ⟨0, [r.1, r.2]⟩
  | .forwardable => some ⟨(snd_pcm_mmap_avail pcm).toInt, []⟩
  | .rewindable => some ⟨(pcm.buffer_size - snd_pcm_mmap_avail pcm).toInt, []⟩
  | _ => none

def Call.reads {ι : Type} : Call ι → Bool
  | .begin _ | .forwardable | .rewindable => true
  | _ => false

/-- The calls after which the copy is up to date, unless they fail. -/
def Call.syncs {ι : Type} : Call ι → Bool
  | .state | .hwsync | .avail _ _ | .avail_update _ | .prepare | .reset | .writei _ _ _ | .writen _ _ _
  | .readi _ _ _ | .readn _ _ _ | .commit _ _ => true
  | .rewind frames | .forward frames => frames ≠ 0#64
  | _ => false

section Runs

variable {κ ι : Type} (D : Device κ ι)

def returning (r : Int × State κ) : Option (Returned × State κ) := some (⟨r.1, []⟩, r.2)

def snd_pcm_delay (s : State κ) : Returned × State κ :=
  let (err, delay, s) := ioctl D s .delay
  if err < 0 then (⟨err, []⟩, s) else (⟨0, [delay]⟩, s)

def snd_pcm_avail_delay (s : State κ) (between meanwhile : ι) : Returned × State κ :=
  let (delayed, s) := snd_pcm_delay D s
  if delayed.ret < 0 then (delayed, s)
  else
    let (val, s) := snd_pcm_avail_update D (tick D s between) meanwhile
    if val < 0 then (⟨cut val, delayed.out⟩, s) else (⟨0, delayed.out ++ [BitVec.ofInt 64 val]⟩, s)

/-- `none` where the outcome is not defined. -/
def call (s : State κ) : Call ι → Option (Returned × State κ)
  | .state =>
    let (state, s) := snd_pcm_state D s
    returning (state.toInt, s)
  | .hwsync => returning (_snd_pcm_hwsync D s)
  | .avail before meanwhile => returning (snd_pcm_avail D s before meanwhile)
  | .avail_update meanwhile => returning (snd_pcm_avail_update D s meanwhile)
  | .delay => some (snd_pcm_delay D s)
  | .avail_delay between meanwhile => some (snd_pcm_avail_delay D s between meanwhile)
  | .prepare => returning (snd_pcm_prepare D s)
  | .reset => returning (snd_pcm_reset D s)
  | .start => returning (snd_pcm_start D s)
  | .drop => returning (snd_pcm_drop D s)
  | .drain => returning (snd_pcm_drain D s)
  | .pause enable => returning (snd_pcm_pause D s enable)
  | .resume => returning (snd_pcm_resume D s)
  | .rewind frames => returning (snd_pcm_rewind D s frames)
  | .forward frames => returning (snd_pcm_forward D s frames)
  | .writei buffer size meanwhile => returning (snd_pcm_writei D s buffer size meanwhile)
  | .writen bufs size meanwhile => returning (snd_pcm_writen D s bufs size meanwhile)
  | .readi buffer size meanwhile => returning (snd_pcm_readi D s buffer size meanwhile)
  | .readn bufs size meanwhile => returning (snd_pcm_readn D s bufs size meanwhile)
  | .sw_params params => returning (snd_pcm_sw_params D s params)
  | .commit offset frames => returning (snd_pcm_mmap_commit D s offset frames)
  | .wait i => returning (0, tick D s i)
  | c => (reading (view D s) c).map fun r => (r, s)

/-! ## What is demanded -/

/-- The ioctls that move the application's pointer. -/
def Request.moves : Request → Bool
  | .prepare | .reset | .rewind _ | .forward _ | .xfer _ _ _ => true
  | _ => false

/-- What the library relies on. The kernel exchanges the pages or refuses to. The control page belongs to the
application: only the ioctls for it change what is in there, and only when they succeed. -/
structure Documented : Prop where
  sync_ptr : ∀ p k, (D.sync_ptr p k).1 = (synced D p k).1 → D.sync_ptr p k = synced D p k
  control_store : ∀ control k, D.control (D.store control k) = control
  status_store : ∀ control k, D.status (D.store control k) = D.status k
  store_control : ∀ k, D.store (D.control k) k = k
  tick : ∀ i k, D.control (D.tick i k) = D.control k
  keeps : ∀ request k, (∀ params, request ≠ .sw_params params) →
    request.moves = false ∨ (D.ioctl request k).1 ≠ 0 → D.control (D.ioctl request k).2.2 = D.control k
  moves : ∀ request k, request.moves = true →
    (D.control (D.ioctl request k).2.2).avail_min = (D.control k).avail_min
  sw_params : ∀ params k, D.control (D.ioctl (.sw_params params) k).2.2 =
    if (D.ioctl (.sw_params params) k).1 = 0 then { D.control k with avail_min := params.avail_min } else D.control k

/-- The PCM without the pages stands for the one with them. -/
structure StandsFor (s t : State κ) : Prop where
  pages : s.sync_ptr = none
  copy : ∃ p, t.sync_ptr = some p ∧ p.control = D.control s.kernel
  kernel : t.kernel = s.kernel
  pcm : t.pcm = s.pcm

/-- A call does the same with and without the pages, but where it only looks at the pointers it sees the
hardware's as it was when the copy was last brought up to date. -/
structure Matched (s t : State κ) (c : Call ι) (r r' : Returned × State κ) : Prop where
  same : c.reads = false → r'.1 = r.1
  reads : c.reads = true → some r'.1 = reading { view D s with hw_ptr := (mmap_status D t).hw_ptr } c ∧ r'.2 = t
  syncs : c.syncs = true → 0 ≤ r.1.ret → mmap_status D r'.2 = D.status r.2.kernel

/-- Both are undefined for the call, or they match and go on in the same way if no exchange has been refused. -/
def Carries (s t : State κ) (c : Call ι) : Option (Returned × State κ) → Option (Returned × State κ) → Prop :=
  Both fun r r' => r'.2.refused = false → Matched D s t c r r' ∧ StandsFor D r.2 r'.2

/-! ## One call -/

/-- The two come to the same: they return the same, and the one stands for the other again. -/
structure Same (r r' : Int × State κ) : Prop where
  ret : r'.1 = r.1
  stands : StandsFor D r.2 r'.2

/-- With the copy up to date unless there was an error. -/
structure Synced (r r' : Int × State κ) : Prop extends Same D r r' where
  status : 0 ≤ r.1 → mmap_status D r'.2 = D.status r.2.kernel

variable {D}

section Calls

variable (hD : Documented D)

include hD

/-- An exchange that is not refused. -/
theorem sync_exact {t : State κ} {p : SndPcmSyncPtr} {flags : BitVec 32} (hcopy : t.sync_ptr = some p)
    (hok : (_snd_pcm_sync_ptr D t flags).2.refused = false) :
    D.sync_ptr { p with flags } t.kernel = synced D { p with flags } t.kernel := by
  apply hD.sync_ptr
  unfold _snd_pcm_sync_ptr at hok
  rw [hcopy] at hok
  simp only [Bool.or_eq_false_iff, bne_eq_false_iff_eq] at hok
  exact hok.2

/-- The copy is exchanged with the kernel, whose control is then that of the pages. -/
theorem sync_stands {s t : State κ} {p : SndPcmSyncPtr} (flags : BitVec 32)
    (hok : (_snd_pcm_sync_ptr D t flags).2.refused = false) (hpages : s.sync_ptr = none)
    (hpcm : t.pcm = s.pcm) (hcopy : t.sync_ptr = some p) (hhwsync : flags &&& SNDRV_PCM_SYNC_PTR_HWSYNC = 0#32)
    (havail : flags &&& SNDRV_PCM_SYNC_PTR_AVAIL_MIN = 0#32)
    (hkernel : s.kernel = D.store
      ⟨if flags &&& SNDRV_PCM_SYNC_PTR_APPL ≠ 0#32 then (D.control t.kernel).appl_ptr else p.control.appl_ptr,
        p.control.avail_min⟩ t.kernel) :
    Synced D (0, s) (_snd_pcm_sync_ptr D t flags) := by
  have hsync : _snd_pcm_sync_ptr D t flags =
      (0, { t with
        sync_ptr := some
          { flags, status := D.status s.kernel
            control :=
              ⟨if flags &&& SNDRV_PCM_SYNC_PTR_APPL ≠ 0#32 then (D.control t.kernel).appl_ptr else p.control.appl_ptr,
                p.control.avail_min⟩ }
        kernel := s.kernel }) := by
    have hexact := sync_exact hD hcopy hok
    unfold _snd_pcm_sync_ptr
    simp only [hcopy, hexact, bne_self_eq_false, Bool.or_false]
    simp only [synced, hhwsync, havail, ne_eq, not_true_eq_false, if_false, hkernel]
    rfl
  rw [hsync]
  refine ⟨⟨rfl, hpages, ⟨_, rfl, ?_⟩, rfl, hpcm⟩, fun _ => rfl⟩
  rw [hkernel, hD.control_store]

/-- Nothing has changed on the one side that the other does not have. -/
theorem sync_again {s t : State κ} (h : StandsFor D s t) (flags : BitVec 32)
    (hok : (_snd_pcm_sync_ptr D t flags).2.refused = false) (hhwsync : flags &&& SNDRV_PCM_SYNC_PTR_HWSYNC = 0#32)
    (havail : flags &&& SNDRV_PCM_SYNC_PTR_AVAIL_MIN = 0#32) : Synced D (0, s) (_snd_pcm_sync_ptr D t flags) := by
  obtain ⟨p, hcopy, hcontrol⟩ := h.copy
  apply sync_stands hD flags hok h.pages h.pcm hcopy hhwsync havail
  rw [h.kernel, hcontrol, ite_self]
  exact (hD.store_control s.kernel).symm

/-- The kernel has moved the application's pointer, which the copy takes from there. -/
theorem sync_appl {s t : State κ} {p : SndPcmSyncPtr} (hpages : s.sync_ptr = none) (hpcm : t.pcm = s.pcm)
    (hkernel : t.kernel = s.kernel) (hcopy : t.sync_ptr = some p)
    (havail : p.control.avail_min = (D.control s.kernel).avail_min)
    (hok : (_snd_pcm_sync_ptr D t SNDRV_PCM_SYNC_PTR_APPL).2.refused = false) :
    Synced D (0, s) (_snd_pcm_sync_ptr D t SNDRV_PCM_SYNC_PTR_APPL) := by
  apply sync_stands hD _ hok hpages hpcm hcopy (by decide) (by decide)
  rw [if_pos (by decide), hkernel, havail]
  exact (hD.store_control s.kernel).symm

omit hD in
theorem sync_pages {s : State κ} (hpages : s.sync_ptr = none) (flags : BitVec 32) :
    _snd_pcm_sync_ptr D s flags = (0, s) := by
  unfold _snd_pcm_sync_ptr
  rw [hpages]

omit hD in
theorem ioctl_pages {s : State κ} (hpages : s.sync_ptr = none) (request : Request) :
    (ioctl D s request).2.2.sync_ptr = none := hpages

omit hD in
theorem status_pages {s t : State κ} (h : StandsFor D s t) : mmap_status D s = D.status s.kernel := by
  unfold mmap_status
  rw [h.pages]

omit hD in
theorem control_same {s t : State κ} (h : StandsFor D s t) : mmap_control D t = mmap_control D s := by
  obtain ⟨p, hcopy, hcontrol⟩ := h.copy
  unfold mmap_control
  rw [h.pages, hcopy]
  exact hcontrol

omit hD in
/-- They see the same but for the hardware's pointer. -/
theorem view_same {s t : State κ} (h : StandsFor D s t) :
    view D t = { view D s with hw_ptr := (mmap_status D t).hw_ptr } := by
  unfold view
  rw [control_same h, h.pcm]

theorem tick_stands {s t : State κ} (h : StandsFor D s t) (i : ι) : StandsFor D (tick D s i) (tick D t i) := by
  obtain ⟨p, hcopy, hcontrol⟩ := h.copy
  unfold tick
  rw [h.kernel]
  exact ⟨h.pages, ⟨p, hcopy, hcontrol.trans (hD.tick i s.kernel).symm⟩, rfl, h.pcm⟩

theorem state_same {s t : State κ} (h : StandsFor D s t) (hok : (snd_pcm_state D t).2.refused = false) :
    (snd_pcm_state D t).1 = (snd_pcm_state D s).1 ∧ StandsFor D (snd_pcm_state D s).2 (snd_pcm_state D t).2 ∧
      mmap_status D (snd_pcm_state D t).2 = D.status (snd_pcm_state D s).2.kernel := by
  have hsync := sync_again hD h SNDRV_PCM_SYNC_PTR_APPL hok (by decide) (by decide)
  have hstatus := hsync.status (le_refl _)
  unfold snd_pcm_state
  rw [sync_pages h.pages]
  dsimp only at hstatus ⊢
  rw [hstatus, status_pages h]
  exact ⟨rfl, hsync.stands, rfl⟩

omit hD in
theorem ioctl_same {s t : State κ} (h : StandsFor D s t) (request : Request) :
    (ioctl D t request).1 = (ioctl D s request).1 ∧ (ioctl D t request).2.1 = (ioctl D s request).2.1 := by
  unfold ioctl
  rw [h.kernel]
  exact ⟨rfl, rfl⟩

theorem ioctl_stands {s t : State κ} (h : StandsFor D s t) (request : Request)
    (hparams : ∀ params, request ≠ .sw_params params) (hkeeps : request.moves = false ∨ (ioctl D s request).1 < 0) :
    StandsFor D (ioctl D s request).2.2 (ioctl D t request).2.2 := by
  obtain ⟨p, hcopy, hcontrol⟩ := h.copy
  have hkept : D.control (D.ioctl request s.kernel).2.2 = D.control s.kernel := by
    apply hD.keeps request s.kernel hparams
    refine hkeeps.imp_right fun hneg => ?_
    change -((D.ioctl request s.kernel).1 : Int) < 0 at hneg
    omega
  unfold ioctl
  rw [h.kernel]
  exact ⟨h.pages, ⟨p, hcopy, hcontrol.trans hkept.symm⟩, rfl, h.pcm⟩

/-- After an ioctl that may have moved the application's pointer. -/
theorem ioctl_sync {s t : State κ} (h : StandsFor D s t) (request : Request) (hmoves : request.moves = true)
    (hok : (_snd_pcm_sync_ptr D (ioctl D t request).2.2 SNDRV_PCM_SYNC_PTR_APPL).2.refused = false) :
    Synced D (0, (ioctl D s request).2.2) (_snd_pcm_sync_ptr D (ioctl D t request).2.2 SNDRV_PCM_SYNC_PTR_APPL) := by
  obtain ⟨p, hcopy, hcontrol⟩ := h.copy
  have havail := hD.moves request s.kernel hmoves
  unfold ioctl at hok ⊢
  rw [h.kernel] at hok ⊢
  exact sync_appl hD h.pages h.pcm rfl hcopy (by rw [hcontrol]; exact havail.symm) hok

omit hD in
theorem Same.synced_of_neg {r r' : Int × State κ} (h : Same D r r') (hneg : r.1 < 0) : Synced D r r' :=
  { h with status := fun hpos => absurd hneg (not_lt.mpr hpos) }

theorem plain_same {s t : State κ} (h : StandsFor D s t) (request : Request) (hmoves : request.moves = false)
    (hparams : ∀ params, request ≠ .sw_params params) : Same D (plain D s request) (plain D t request) where
  ret := (ioctl_same h request).1
  stands := ioctl_stands hD h request hparams (Or.inl hmoves)

theorem start_same {s t : State κ} (h : StandsFor D s t) (hok : (snd_pcm_start D t).2.refused = false) :
    Same D (snd_pcm_start D s) (snd_pcm_start D t) := by
  have hsync := sync_again hD h 0#32 hok (by decide) (by decide)
  unfold snd_pcm_start
  rw [sync_pages h.pages]
  exact plain_same hD hsync.stands .start rfl (by simp)

theorem then_sync_synced {s t : State κ} (h : StandsFor D s t) (request : Request) (hmoves : request.moves = true)
    (hparams : ∀ params, request ≠ .sw_params params) (hok : (then_sync D t request).2.refused = false) :
    Synced D (then_sync D s request) (then_sync D t request) := by
  obtain ⟨herr, -⟩ := ioctl_same h request
  unfold then_sync at hok ⊢
  dsimp only at hok ⊢
  rw [herr] at hok ⊢
  by_cases hneg : (ioctl D s request).1 < 0
  · rw [if_pos hneg, if_pos hneg]
    exact Same.synced_of_neg ⟨rfl, ioctl_stands hD h request hparams (Or.inr hneg)⟩ hneg
  · rw [if_neg hneg] at hok
    rw [if_neg hneg, if_neg hneg, sync_pages (ioctl_pages h.pages request)]
    exact ioctl_sync hD h request hmoves hok

theorem hwsync_synced {s t : State κ} (h : StandsFor D s t) (hok : (_snd_pcm_hwsync D t).2.refused = false) :
    Synced D (_snd_pcm_hwsync D s) (_snd_pcm_hwsync D t) := by
  obtain ⟨p, hcopy, hcontrol⟩ := h.copy
  have hkept : D.control (D.ioctl .hwsync s.kernel).2.2 = D.control s.kernel :=
    hD.keeps .hwsync s.kernel (by simp) (Or.inl rfl)
  have hpages : _snd_pcm_hwsync D s = plain D s .hwsync := by
    unfold _snd_pcm_hwsync
    rw [h.pages]
    rfl
  have hsync : _snd_pcm_hwsync D t = _snd_pcm_sync_ptr D t SNDRV_PCM_SYNC_PTR_HWSYNC := by
    unfold _snd_pcm_hwsync
    rw [hcopy]
    rfl
  rw [hsync] at hok
  have hexact := sync_exact hD hcopy hok
  have hboth : D.sync_ptr { p with flags := SNDRV_PCM_SYNC_PTR_HWSYNC } s.kernel =
      if (D.ioctl .hwsync s.kernel).1 ≠ 0 then
        ((D.ioctl .hwsync s.kernel).1, { p with flags := SNDRV_PCM_SYNC_PTR_HWSYNC }, (D.ioctl .hwsync s.kernel).2.2)
      else
        (0, ⟨SNDRV_PCM_SYNC_PTR_HWSYNC, D.status (D.store p.control (D.ioctl .hwsync s.kernel).2.2), p.control⟩,
          D.store p.control (D.ioctl .hwsync s.kernel).2.2) := by
    have happl : SNDRV_PCM_SYNC_PTR_HWSYNC &&& SNDRV_PCM_SYNC_PTR_APPL = 0#32 := by decide
    have havail : SNDRV_PCM_SYNC_PTR_HWSYNC &&& SNDRV_PCM_SYNC_PTR_AVAIL_MIN = 0#32 := by decide
    have hflag : SNDRV_PCM_SYNC_PTR_HWSYNC &&& SNDRV_PCM_SYNC_PTR_HWSYNC ≠ 0#32 := by decide
    rw [← h.kernel, hexact]
    simp only [synced, if_pos hflag, happl, havail, ne_eq, not_true_eq_false, if_false]
  rw [hpages, hsync]
  unfold _snd_pcm_sync_ptr plain
  rw [hcopy]
  dsimp only
  rw [← hexact, bne_self_eq_false, h.kernel]
  simp only [hboth]
  by_cases herr : (D.ioctl .hwsync s.kernel).1 = 0
  · rw [if_neg (not_not_intro herr), hcontrol, ← hkept, hD.store_control]
    have hret : (ioctl D s .hwsync).1 = 0 := by
      change -((D.ioctl .hwsync s.kernel).1 : Int) = 0
      omega
    exact ⟨⟨hret.symm, h.pages, ⟨_, rfl, rfl⟩, rfl, h.pcm⟩, fun _ => rfl⟩
  · rw [if_pos herr]
    have hneg : (ioctl D s .hwsync).1 < 0 := by
      change -((D.ioctl .hwsync s.kernel).1 : Int) < 0
      omega
    exact Same.synced_of_neg ⟨rfl, h.pages, ⟨_, rfl, hcontrol.trans hkept.symm⟩, rfl, h.pcm⟩ hneg

omit hD in
theorem sync_refused {s : State κ} {flags : BitVec 32} (h : (_snd_pcm_sync_ptr D s flags).2.refused = false) :
    s.refused = false := by
  unfold _snd_pcm_sync_ptr at h
  split at h
  · exact h
  · exact (Bool.or_eq_false_iff.mp h).1

omit hD in
theorem state_refused {s : State κ} (h : (snd_pcm_state D s).2.refused = false) : s.refused = false := sync_refused h

omit hD in
/-- There are two exchanges. -/
theorem avail_update_refused {s : State κ} {meanwhile : ι}
    (h : (snd_pcm_avail_update D s meanwhile).2.refused = false) :
    (_snd_pcm_sync_ptr D s 0#32).2.refused = false ∧
      (snd_pcm_state D (tick D (_snd_pcm_sync_ptr D s 0#32).2 meanwhile)).2.refused = false := by
  have hstate : (snd_pcm_avail_update D s meanwhile).2.refused =
      (snd_pcm_state D (tick D (_snd_pcm_sync_ptr D s 0#32).2 meanwhile)).2.refused := by
    unfold snd_pcm_avail_update
    dsimp only
    split
    · split_ifs <;> rfl
    · rfl
    · rfl
  rw [hstate] at h
  have hfirst := state_refused h
  exact ⟨hfirst, h⟩

theorem avail_update_synced {s t : State κ} (h : StandsFor D s t) (meanwhile : ι)
    (hok : (snd_pcm_avail_update D t meanwhile).2.refused = false) :
    Synced D (snd_pcm_avail_update D s meanwhile) (snd_pcm_avail_update D t meanwhile) := by
  obtain ⟨hfirst, hsecond⟩ := avail_update_refused hok
  have hsync := sync_again hD h 0#32 hfirst (by decide) (by decide)
  have hview : view D (_snd_pcm_sync_ptr D t 0#32).2 = view D s := by
    rw [view_same hsync.stands, hsync.status (le_refl _)]
    unfold view
    rw [status_pages h]
  obtain ⟨hstate, hstands, hstatus⟩ := state_same hD (tick_stands hD hsync.stands meanwhile) hsecond
  unfold snd_pcm_avail_update
  rw [sync_pages h.pages]
  dsimp only at hstate hstands hstatus ⊢
  rw [hview, hstate]
  -- Either the state stops the stream, or the distance is returned.
  cases (snd_pcm_state D (tick D s meanwhile)).1 with
  | running =>
    have hplain := plain_same hD hstands .xrun rfl (by simp)
    have herr := hplain.ret
    unfold plain at herr
    dsimp only at herr ⊢
    rw [hstands.pcm, herr]
    split_ifs with hover hneg
    · exact Same.synced_of_neg ⟨rfl, hplain.stands⟩ hneg
    · exact Same.synced_of_neg ⟨rfl, hplain.stands⟩ (show -EPIPE < 0 by decide)
    · exact ⟨⟨rfl, hstands⟩, fun _ => hstatus⟩
  | xrun => exact Same.synced_of_neg ⟨rfl, hstands⟩ (show -EPIPE < 0 by decide)
  | _ => exact ⟨⟨rfl, hstands⟩, fun _ => hstatus⟩

theorem avail_synced {s t : State κ} (h : StandsFor D s t) (before meanwhile : ι)
    (hok : (snd_pcm_avail D t before meanwhile).2.refused = false) :
    Synced D (snd_pcm_avail D s before meanwhile) (snd_pcm_avail D t before meanwhile) := by
  have hfirst : (_snd_pcm_hwsync D t).2.refused = false := by
    unfold snd_pcm_avail at hok
    dsimp only at hok
    split_ifs at hok
    · exact hok
    · have hfirst := sync_refused (avail_update_refused hok).1
      exact hfirst
  have hhwsync := hwsync_synced hD h hfirst
  unfold snd_pcm_avail at hok ⊢
  dsimp only at hok ⊢
  rw [hhwsync.ret] at hok ⊢
  split_ifs at hok ⊢ with hneg
  · exact Same.synced_of_neg ⟨rfl, hhwsync.stands⟩ hneg
  · exact avail_update_synced hD (tick_stands hD hhwsync.stands before) meanwhile hok

theorem move_appl_ptr_same {s t : State κ} (h : StandsFor D s t) (frames : Uframes) (request : Request)
    (hmoves : request.moves = true) (hparams : ∀ params, request ≠ .sw_params params)
    (hok : (move_appl_ptr D t frames request).2.refused = false) :
    Same D (move_appl_ptr D s frames request) (move_appl_ptr D t frames request) ∧
      (frames ≠ 0#64 → Synced D (move_appl_ptr D s frames request) (move_appl_ptr D t frames request)) := by
  obtain ⟨herr, hresult⟩ := ioctl_same h request
  unfold move_appl_ptr at hok ⊢
  dsimp only at hok ⊢
  rw [herr, hresult] at hok ⊢
  by_cases hframes : frames = 0#64
  · rw [if_pos hframes, if_pos hframes]
    exact ⟨⟨rfl, h⟩, fun hne => absurd hframes hne⟩
  · rw [if_neg hframes] at hok
    rw [if_neg hframes, if_neg hframes]
    suffices hsynced : Synced D _ _ from ⟨hsynced.toSame, fun _ => hsynced⟩
    by_cases hneg : (ioctl D s request).1 < 0
    · rw [if_pos hneg, if_pos hneg]
      exact Same.synced_of_neg ⟨rfl, ioctl_stands hD h request hparams (Or.inr hneg)⟩ hneg
    · rw [if_neg hneg] at hok
      rw [if_neg hneg, if_neg hneg]
      have hsync := ioctl_sync hD h request hmoves hok
      rw [sync_pages (ioctl_pages h.pages request)]
      exact ⟨⟨rfl, hsync.stands⟩, fun _ => hsync.status (le_refl _)⟩

omit hD in
/-- There is an exchange if the call was interrupted. -/
theorem check_error_refused (s : State κ) (err : Int) : (snd_pcm_check_error D s err).2.refused =
    if err = -(EINTR : Int) then (snd_pcm_state D s).2.refused else s.refused := by
  unfold snd_pcm_check_error correct_pcm_error
  dsimp only
  split_ifs
  · split <;> rfl
  · rfl

theorem check_error_same {s t : State κ} (h : StandsFor D s t) (err : Int) (hneg : err < 0)
    (hok : (snd_pcm_check_error D t err).2.refused = false) :
    Same D (snd_pcm_check_error D s err) (snd_pcm_check_error D t err) ∧ (snd_pcm_check_error D s err).1 < 0 := by
  rw [check_error_refused] at hok
  unfold snd_pcm_check_error correct_pcm_error
  dsimp only
  split_ifs at hok ⊢ with hintr
  · obtain ⟨hstate, hstands, -⟩ := state_same hD h hok
    rw [hstate]
    cases (snd_pcm_state D s).1 with
    | xrun => exact ⟨⟨rfl, hstands⟩, show -EPIPE < 0 by decide⟩
    | suspended => exact ⟨⟨rfl, hstands⟩, show -ESTRPIPE < 0 by decide⟩
    | disconnected => exact ⟨⟨rfl, hstands⟩, show -ENODEV < 0 by decide⟩
    | _ => exact ⟨⟨rfl, hstands⟩, hneg⟩
  · exact ⟨⟨rfl, h⟩, hneg⟩

theorem transfer_synced {s t : State κ} (h : StandsFor D s t) (x : Xfer) (buffer : Nat) (size : Uframes)
    (meanwhile : ι) (hok : (transfer D t x buffer size meanwhile).2.refused = false) :
    Synced D (transfer D s x buffer size meanwhile) (transfer D t x buffer size meanwhile) := by
  obtain ⟨p, hcopy, hcontrol⟩ := h.copy
  obtain ⟨herr, hresult⟩ := ioctl_same h (.xfer x buffer size)
  unfold transfer at hok ⊢
  dsimp only at hok ⊢
  rw [herr, hresult] at hok ⊢
  by_cases hneg : (ioctl D s (.xfer x buffer size)).1 < 0
  · rw [if_pos hneg] at hok
    rw [if_pos hneg, if_pos hneg]
    have hstands := tick_stands hD (ioctl_stands hD h (.xfer x buffer size) (by simp) (Or.inr hneg)) meanwhile
    obtain ⟨hsame, hret⟩ := check_error_same hD hstands _ hneg hok
    exact hsame.synced_of_neg hret
  · rw [if_neg hneg] at hok
    rw [if_neg hneg, if_neg hneg]
    have hsync : Synced D (0, tick D (ioctl D s (.xfer x buffer size)).2.2 meanwhile)
        (_snd_pcm_sync_ptr D (tick D (ioctl D t (.xfer x buffer size)).2.2 meanwhile) SNDRV_PCM_SYNC_PTR_APPL) := by
      refine sync_appl hD (s := tick D (ioctl D s (.xfer x buffer size)).2.2 meanwhile) h.pages h.pcm ?_ hcopy ?_ hok
      · unfold tick ioctl
        rw [h.kernel]
      · unfold tick ioctl
        rw [hcontrol, hD.tick]
        exact (hD.moves _ _ rfl).symm
    rw [sync_pages (show (tick D (ioctl D s (.xfer x buffer size)).2.2 meanwhile).sync_ptr = none from h.pages)]
    exact ⟨⟨rfl, hsync.stands⟩, fun _ => hsync.status (le_refl _)⟩

omit hD in
theorem set_mmap_control_pages {s : State κ} (hpages : s.sync_ptr = none) (control : Control) :
    set_mmap_control D s control = { s with kernel := D.store control s.kernel } := by
  unfold set_mmap_control
  rw [hpages]

omit hD in
theorem set_mmap_control_copy {s : State κ} {p : SndPcmSyncPtr} (hcopy : s.sync_ptr = some p) (control : Control) :
    set_mmap_control D s control = { s with sync_ptr := some { p with control } } := by
  unfold set_mmap_control
  rw [hcopy]

/-- The application writes to the page, or to the copy that is sent to the kernel then. -/
theorem store_sync {s t : State κ} (h : StandsFor D s t) (control : Control)
    (hok : (_snd_pcm_sync_ptr D (set_mmap_control D t control) 0#32).2.refused = false) :
    Synced D (0, set_mmap_control D s control) (_snd_pcm_sync_ptr D (set_mmap_control D t control) 0#32) := by
  obtain ⟨p, hcopy, -⟩ := h.copy
  rw [set_mmap_control_copy hcopy] at hok
  rw [set_mmap_control_pages h.pages, set_mmap_control_copy hcopy]
  apply sync_stands hD (p := { p with control }) 0#32 hok
  · exact h.pages
  · exact h.pcm
  · rfl
  · decide
  · decide
  · dsimp only
    rw [h.kernel, if_neg (by decide)]

theorem commit_synced {s t : State κ} (h : StandsFor D s t) (offset frames : Uframes)
    (hok : (snd_pcm_mmap_commit D t offset frames).2.refused = false) :
    Synced D (snd_pcm_mmap_commit D s offset frames) (snd_pcm_mmap_commit D t offset frames) := by
  have happl : (Pcm.snd_pcm_mmap_commit (view D t) offset frames).2.appl_ptr =
      (Pcm.snd_pcm_mmap_commit (view D s) offset frames).2.appl_ptr := by
    rw [view_same h]
    rfl
  unfold snd_pcm_mmap_commit at hok ⊢
  dsimp only at hok ⊢
  rw [happl, control_same h] at hok ⊢
  generalize (Pcm.snd_pcm_mmap_commit (view D s) offset frames).2.appl_ptr = appl_ptr at hok ⊢
  have hsync := store_sync hD h { mmap_control D s with appl_ptr } hok
  rw [sync_pages (show (set_mmap_control D s { mmap_control D s with appl_ptr }).sync_ptr = none by
    rw [set_mmap_control_pages h.pages]; exact h.pages)]
  exact ⟨⟨rfl, hsync.stands⟩, fun _ => hsync.status (le_refl _)⟩

/-- The kernel has taken over `avail_min` already, and the copy follows. -/
theorem avail_min_same {s t : State κ} {p : SndPcmSyncPtr} (hpages : s.sync_ptr = none) (hpcm : t.pcm = s.pcm)
    (hkernel : t.kernel = s.kernel) (hcopy : t.sync_ptr = some p) (avail_min : Uframes)
    (hcontrol : D.control s.kernel = { p.control with avail_min }) :
    Same D (0, set_mmap_control D s { mmap_control D s with avail_min })
      (0, set_mmap_control D t { mmap_control D t with avail_min }) := by
  have hs : mmap_control D s = D.control s.kernel := by
    unfold mmap_control
    rw [hpages]
  have ht : mmap_control D t = p.control := by
    unfold mmap_control
    rw [hcopy]
  have hsame : ({ D.control s.kernel with avail_min } : Control) = D.control s.kernel := by rw [hcontrol]
  rw [hs, ht, hsame, set_mmap_control_pages hpages, set_mmap_control_copy hcopy, hD.store_control]
  exact ⟨rfl, hpages, ⟨_, rfl, hcontrol.symm⟩, hkernel, hpcm⟩

theorem sw_params_same {s t : State κ} (h : StandsFor D s t) (params : SndPcmSwParams) :
    Same D (snd_pcm_sw_params D s params) (snd_pcm_sw_params D t params) := by
  obtain ⟨p, hcopy, hcontrol⟩ := h.copy
  obtain ⟨herr, -⟩ := ioctl_same h (.sw_params params)
  have hkernel : (ioctl D t (.sw_params params)).2.2.kernel = (ioctl D s (.sw_params params)).2.2.kernel := by
    unfold ioctl
    rw [h.kernel]
  have hparams := hD.sw_params params s.kernel
  unfold snd_pcm_sw_params
  dsimp only
  rw [herr, h.pcm]
  split_ifs with hsetup hneg
  · change -((D.ioctl (.sw_params params) s.kernel).1 : Int) < 0 at hneg
    rw [if_neg (by omega)] at hparams
    exact ⟨rfl, h.pages, ⟨p, hcopy, hcontrol.trans hparams.symm⟩, hkernel, h.pcm⟩
  · change ¬ -((D.ioctl (.sw_params params) s.kernel).1 : Int) < 0 at hneg
    rw [if_pos (by omega), ← hcontrol] at hparams
    exact avail_min_same hD
      (s := { (ioctl D s (.sw_params params)).2.2 with pcm := { s.pcm with sw_params := params } })
      (t := { (ioctl D t (.sw_params params)).2.2 with pcm := { t.pcm with sw_params := params } })
      h.pages (by rw [h.pcm]) hkernel hcopy params.avail_min hparams
  · exact ⟨rfl, h⟩

theorem delay_same {s t : State κ} (h : StandsFor D s t) :
    (snd_pcm_delay D t).1 = (snd_pcm_delay D s).1 ∧ StandsFor D (snd_pcm_delay D s).2 (snd_pcm_delay D t).2 := by
  obtain ⟨herr, hdelay⟩ := ioctl_same h .delay
  have hstands := ioctl_stands hD h .delay (by simp) (Or.inl rfl)
  unfold snd_pcm_delay
  dsimp only
  rw [herr, hdelay]
  split_ifs
  · exact ⟨rfl, hstands⟩
  · exact ⟨rfl, hstands⟩

theorem avail_delay_same {s t : State κ} (h : StandsFor D s t) (between meanwhile : ι)
    (hok : (snd_pcm_avail_delay D t between meanwhile).2.refused = false) :
    (snd_pcm_avail_delay D t between meanwhile).1 = (snd_pcm_avail_delay D s between meanwhile).1 ∧
      StandsFor D (snd_pcm_avail_delay D s between meanwhile).2 (snd_pcm_avail_delay D t between meanwhile).2 := by
  obtain ⟨hdelayed, hstands⟩ := delay_same hD h
  unfold snd_pcm_avail_delay at hok ⊢
  dsimp only at hok ⊢
  rw [hdelayed] at hok ⊢
  by_cases hneg : (snd_pcm_delay D s).1.ret < 0
  · rw [if_pos hneg, if_pos hneg]
    exact ⟨rfl, hstands⟩
  · rw [if_neg hneg] at hok
    rw [if_neg hneg, if_neg hneg]
    have havail := avail_update_synced hD (tick_stands hD hstands between) meanwhile (by split_ifs at hok <;> exact hok)
    rw [havail.ret]
    split_ifs
    · exact ⟨rfl, havail.stands⟩
    · exact ⟨rfl, havail.stands⟩

omit hD in
/-- A call that returns just a number. -/
theorem returning_matched {s t : State κ} {c : Call ι} {r r' : Int × State κ}
    (h : r'.2.refused = false → Same D r r' ∧
      (c.syncs = true → 0 ≤ r.1 → mmap_status D r'.2 = D.status r.2.kernel))
    (hreads : c.reads = false) : Carries D s t c (returning r) (returning r') := by
  intro hok
  obtain ⟨hsame, hsyncs⟩ := h hok
  refine ⟨⟨fun _ => ?_, fun hread => ?_, hsyncs⟩, hsame.stands⟩
  · dsimp only
    rw [hsame.ret]
  · rw [hreads] at hread
    cases hread

omit hD in
/-- A call that looks at the pointers. -/
theorem reading_matched {s t : State κ} (h : StandsFor D s t) (c : Call ι) (r r' : Returned) (hsyncs : c.syncs = false)
    (hreads : c.reads = true) (hread : reading (view D t) c = some r') :
    Carries D s t c (some (r, s)) (some (r', t)) := by
  refine fun _ => ⟨⟨fun hno => ?_, fun _ => ⟨?_, rfl⟩, fun hsync => ?_⟩, h⟩
  · rw [hreads] at hno
    cases hno
  · rw [← view_same h]
    exact hread.symm
  · rw [hsyncs] at hsync
    cases hsync

omit hD in
theorem begin_matched {s t : State κ} (h : StandsFor D s t) (frames : Uframes) :
    Carries D s t (.begin frames : Call ι) (call D s (.begin frames : Call ι)) (call D t (.begin frames : Call ι)) := by
  have hsize : (view D t).buffer_size = (view D s).buffer_size := by
    rw [view_same h]
  by_cases hzero : (view D s).buffer_size = 0#64
  · have hnone (u : State κ) (hu : (view D u).buffer_size = 0#64) : call D u (.begin frames : Call ι) = none := by
      unfold call reading snd_pcm_mmap_begin
      dsimp only
      rw [if_pos hu]
      rfl
    rw [hnone s hzero, hnone t (hsize.trans hzero)]
    trivial
  · have hsome (u : State κ) (hu : (view D u).buffer_size ≠ 0#64) :
        ∃ r, reading (view D u) (.begin frames : Call ι) = some r ∧
          call D u (.begin frames : Call ι) = some (r, u) := by
      unfold call reading snd_pcm_mmap_begin
      dsimp only
      rw [if_neg hu]
      exact ⟨_, rfl, rfl⟩
    obtain ⟨r, -, hcall⟩ := hsome s hzero
    obtain ⟨r', hread, hcall'⟩ := hsome t (hsize ▸ hzero)
    rw [hcall, hcall']
    exact reading_matched h _ r r' rfl rfl hread

theorem call_matched {s t : State κ} (h : StandsFor D s t) (c : Call ι) :
    Carries D s t c (call D s c) (call D t c) := by
  have hsynced {r r' : Int × State κ} (hr : r'.2.refused = false → Synced D r r') (hreads : c.reads = false) :
      Carries D s t c (returning r) (returning r') :=
    returning_matched (fun hok => ⟨(hr hok).toSame, fun _ => (hr hok).status⟩) hreads
  have hplain {r r' : Int × State κ} (hr : r'.2.refused = false → Same D r r') (hreads : c.reads = false)
      (hno : c.syncs = false) : Carries D s t c (returning r) (returning r') :=
    returning_matched (fun hok => ⟨hr hok, fun hsyncs => by rw [hno] at hsyncs; cases hsyncs⟩) hreads
  cases c with
  | state =>
    refine hsynced (fun hok => ?_) rfl
    obtain ⟨hstate, hstands, hstatus⟩ := state_same hD h hok
    exact ⟨⟨congrArg SndPcmState.toInt hstate, hstands⟩, fun _ => hstatus⟩
  | hwsync => exact hsynced (hwsync_synced hD h) rfl
  | avail before meanwhile => exact hsynced (avail_synced hD h before meanwhile) rfl
  | avail_update meanwhile => exact hsynced (avail_update_synced hD h meanwhile) rfl
  | delay =>
    obtain ⟨hret, hstands⟩ := delay_same hD h
    exact fun _ => ⟨⟨fun _ => hret, fun hread => (nomatch hread), fun hsyncs => (nomatch hsyncs)⟩, hstands⟩
  | avail_delay between meanwhile =>
    intro hok
    obtain ⟨hret, hstands⟩ := avail_delay_same hD h between meanwhile hok
    exact ⟨⟨fun _ => hret, fun hread => (nomatch hread), fun hsyncs => (nomatch hsyncs)⟩, hstands⟩
  | prepare => exact hsynced (then_sync_synced hD h .prepare rfl (by simp)) rfl
  | reset => exact hsynced (then_sync_synced hD h .reset rfl (by simp)) rfl
  | start => exact hplain (start_same hD h) rfl rfl
  | drop => exact hplain (fun _ => plain_same hD h .drop rfl (by simp)) rfl rfl
  | drain => exact hplain (fun _ => plain_same hD h .drain rfl (by simp)) rfl rfl
  | pause enable => exact hplain (fun _ => plain_same hD h (.pause enable) rfl (by simp)) rfl rfl
  | resume => exact hplain (fun _ => plain_same hD h .resume rfl (by simp)) rfl rfl
  | rewind frames =>
    refine returning_matched (fun hok => ?_) rfl
    obtain ⟨hsame, hsync⟩ := move_appl_ptr_same hD h frames (.rewind frames) rfl (by simp) hok
    exact ⟨hsame, fun hframes => (hsync (of_decide_eq_true hframes)).status⟩
  | forward frames =>
    refine returning_matched (fun hok => ?_) rfl
    obtain ⟨hsame, hsync⟩ := move_appl_ptr_same hD h frames (.forward frames) rfl (by simp) hok
    exact ⟨hsame, fun hframes => (hsync (of_decide_eq_true hframes)).status⟩
  | writei buffer size meanwhile => exact hsynced (transfer_synced hD h .writei buffer size meanwhile) rfl
  | writen bufs size meanwhile => exact hsynced (transfer_synced hD h .writen bufs size meanwhile) rfl
  | readi buffer size meanwhile => exact hsynced (transfer_synced hD h .readi buffer size meanwhile) rfl
  | readn bufs size meanwhile => exact hsynced (transfer_synced hD h .readn bufs size meanwhile) rfl
  | sw_params params => exact hplain (fun _ => sw_params_same hD h params) rfl rfl
  | commit offset frames => exact hsynced (commit_synced hD h offset frames) rfl
  | begin frames => exact begin_matched h frames
  | forwardable => exact reading_matched h .forwardable _ _ rfl rfl rfl
  | rewindable => exact reading_matched h .rewindable _ _ rfl rfl rfl
  | wait i => exact hplain (fun _ => ⟨rfl, tick_stands hD h i⟩) rfl rfl

/-- A PCM that is opened without its pages, where the other one has them. -/
theorem opened_stands (o o' : Answers) (pcm : SndPcm) (k : κ) (happl : (D.control k).appl_ptr = 0#64)
    (ho : o.status = true ∧ o.control = true) (ho' : ¬ (o'.status = true ∧ o'.control = true))
    (hcalloc : o'.calloc = true) :
    ∃ s t, snd_pcm_hw_mmap_status D o pcm k = (0, s) ∧ snd_pcm_hw_mmap_status D o' pcm k = (0, t) ∧
      (t.refused = false → StandsFor D s t) := by
  have hs : snd_pcm_hw_mmap_status D o pcm k =
      (0, ⟨pcm, none, D.store { D.control k with avail_min := 1#64 } k, false⟩) := by
    unfold snd_pcm_hw_mmap_status
    rw [if_pos ho]
    rfl
  have ht : snd_pcm_hw_mmap_status D o' pcm k =
      (0, (_snd_pcm_sync_ptr D ⟨pcm, some { cleared with control := ⟨0#64, 1#64⟩ }, k, false⟩ 0#32).2) := by
    unfold snd_pcm_hw_mmap_status
    rw [if_neg ho', if_neg (not_not_intro hcalloc)]
    rfl
  refine ⟨_, _, hs, ht, fun hok => ?_⟩
  have hsync := sync_stands hD (s := ⟨pcm, none, D.store { D.control k with avail_min := 1#64 } k, false⟩)
    (t := ⟨pcm, some { cleared with control := ⟨0#64, 1#64⟩ }, k, false⟩) 0#32 hok rfl rfl rfl (by decide) (by decide)
    (by
      dsimp only
      rw [happl, if_neg (by decide)])
  exact hsync.stands

end Calls

end Runs

/-- The library works the same without the pages: opened with the pages or without, the PCM stands for the
same, and from there every list of calls does the same on the device and returns the same, except that a look
at the pointers sees the hardware's as of the last exchange. This ends where the kernel refuses an exchange. -/
theorem copy_like_pages {κ ι : Type} (D : Device κ ι) (hD : Documented D) :
    (∀ (o o' : Answers) (pcm : SndPcm) (k : κ), (D.control k).appl_ptr = 0#64 → (o.status = true ∧ o.control = true) →
      ¬ (o'.status = true ∧ o'.control = true) → o'.calloc = true →
        ∃ s t, snd_pcm_hw_mmap_status D o pcm k = (0, s) ∧ snd_pcm_hw_mmap_status D o' pcm k = (0, t) ∧
          (t.refused = false → StandsFor D s t)) ∧
      ∀ (s t : State κ) (cs : List (Call ι)), StandsFor D s t →
        Along (call D) (call D) (fun t => t.refused = false) (StandsFor D) (Matched D) s t cs := by
  refine ⟨opened_stands hD, fun s t cs h => ?_⟩
  apply along_of_step
  · exact fun s t c hst => call_matched hD hst c
  · exact h

/-- A device whose hardware plays what it is given, without an error. -/
def playing : Device (Status × Control) Nat :=
  { status := Prod.fst
    control := Prod.snd
    store := fun control k => (k.1, control)
    tick := fun n k => ({ k.1 with hw_ptr := k.1.hw_ptr + BitVec.ofNat 64 n }, k.2)
    ioctl := fun request k =>
      match request with
      | .prepare | .reset => (0, 0#64, ({ k.1 with state := .prepared }, { k.2 with appl_ptr := k.1.hw_ptr }))
      | .start => (0, 0#64, ({ k.1 with state := .running }, k.2))
      | .xfer _ _ frames => (0, frames, (k.1, { k.2 with appl_ptr := k.2.appl_ptr + frames }))
      | .sw_params params => (0, 0#64, (k.1, { k.2 with avail_min := params.avail_min }))
      | _ => (0, 0#64, k)
    sync_ptr := fun p k => (0, p, k) }

/-- An application's pointer from 64 on is refused. -/
def synced_playing : Device (Status × Control) Nat :=
  { playing with
    sync_ptr := fun p k =>
      if p.flags &&& SNDRV_PCM_SYNC_PTR_APPL = 0#32 ∧ p.control.appl_ptr ≥ 64#64 then (22, p, k)
      else synced playing p k }

theorem synced_playing_documented : Documented synced_playing where
  sync_ptr p k h := by
    have hzero : (synced synced_playing p k).1 = 0 := by
      unfold synced
      split_ifs <;> rfl
    rw [hzero] at h
    have hexchange : synced_playing.sync_ptr p k =
        if p.flags &&& SNDRV_PCM_SYNC_PTR_APPL = 0#32 ∧ p.control.appl_ptr ≥ 64#64 then (22, p, k)
        else synced playing p k := rfl
    rw [hexchange] at h ⊢
    split_ifs at h ⊢
    rfl
  control_store _ _ := rfl
  status_store _ _ := rfl
  store_control _ := rfl
  tick _ _ := rfl
  keeps request k hparams hkeeps := by
    cases request with
    | prepare => simp [Request.moves, synced_playing, playing] at hkeeps
    | reset => simp [Request.moves, synced_playing, playing] at hkeeps
    | xfer x buffer frames => simp [Request.moves, synced_playing, playing] at hkeeps
    | sw_params params => exact absurd rfl (hparams params)
    | _ => rfl
  moves request k hmoves := by
    cases request with
    | prepare => rfl
    | reset => rfl
    | xfer x buffer frames => rfl
    | rewind frames => rfl
    | forward frames => rfl
    | _ => cases hmoves
  sw_params _ _ := rfl

def sampled : SndPcm := { snd_pcm_open .playback with buffer_size := 8#64, boundary := 64#64 }

theorem copy_like_pages_playing : ∃ s t,
    snd_pcm_hw_mmap_status synced_playing ⟨true, true, true⟩ sampled (cleared.status, cleared.control) = (0, s) ∧
      snd_pcm_hw_mmap_status synced_playing ⟨true, false, true⟩ sampled (cleared.status, cleared.control) = (0, t) ∧
      t.refused = false ∧
      Along (call synced_playing) (call synced_playing) (fun t => t.refused = false) (StandsFor synced_playing)
        (Matched synced_playing) s t
        [.prepare, .commit 0#64 4#64, .start, .wait 2, .begin 8#64, .avail_update 1, .begin 8#64] := by
  obtain ⟨hopen, hrun⟩ := copy_like_pages synced_playing synced_playing_documented
  obtain ⟨s, t, hs, ht, hstands⟩ := hopen ⟨true, true, true⟩ ⟨true, false, true⟩ sampled
    (cleared.status, cleared.control) rfl ⟨rfl, rfl⟩ (by decide) rfl
  have hok : t.refused = false := by
    cases ht
    rfl
  exact ⟨s, t, hs, ht, hok, hrun s t _ (hstands hok)⟩

end Salsa.Pcm.SyncPtr
