import Salsa.Pcm.Setup
import Salsa.Lib.Run
import Mathlib.Tactic.Common

/-!
# The ring of a mapped PCM

`snd_pcm_mmap_begin`, `snd_pcm_mmap_commit` and the distance between the two pointers, along
runs after `snd_pcm_hw_params`.

`snd_pcm_sw_params_default` leaves the wrap point of the pointers in `sw_params.boundary`, and
the kernel wraps its pointer there. The library wraps at `pcm->boundary`, which is 0 for good.
-/

namespace Salsa.Pcm

open HwParams Run

/-! ## The source -/

def snd_pcm_mmap_playback_avail (pcm : SndPcm) : Uframes :=
  let avail := pcm.hw_ptr + pcm.buffer_size - pcm.appl_ptr
  if avail.slt 0#64 then avail + pcm.boundary
  else if pcm.boundary ≤ avail then avail - pcm.boundary
  else avail

def snd_pcm_mmap_capture_avail (pcm : SndPcm) : Uframes :=
  let avail := pcm.hw_ptr - pcm.appl_ptr
  if avail.slt 0#64 then avail + pcm.boundary else avail

def snd_pcm_mmap_avail (pcm : SndPcm) : Uframes :=
  match pcm.stream with
  | .playback => snd_pcm_mmap_playback_avail pcm
  | .capture => snd_pcm_mmap_capture_avail pcm

/-- Returns `*offset` and `*frames`. Without a buffer the division is undefined. -/
def snd_pcm_mmap_begin (pcm : SndPcm) (frames : Uframes) : Option (Uframes × Uframes) :=
  if pcm.buffer_size = 0#64 then none
  else
    let offset := pcm.appl_ptr % pcm.buffer_size
    let avail := snd_pcm_mmap_avail pcm
    let avail := if avail > pcm.buffer_size then pcm.buffer_size else avail
    let cont := pcm.buffer_size - offset
    let f := frames
    let f := if f > avail then avail else f
    let f := if f > cont then cont else f
    some (offset, f)

/-- `offset` is not looked at. -/
def snd_pcm_mmap_commit (pcm : SndPcm) (_offset frames : Uframes) : Uframes × SndPcm :=
  let appl_ptr := pcm.appl_ptr + frames
  let appl_ptr := if appl_ptr ≥ pcm.boundary then appl_ptr - pcm.boundary else appl_ptr
  (frames, { pcm with appl_ptr })

/-! ## Runs -/

/-- A PCM that `snd_pcm_open` made, after any use of it. -/
inductive Opened : SndPcm → Prop
  | snd_pcm_open (stream : SndPcmStream) : Opened (snd_pcm_open stream)
  | snd_pcm_hw_params (k : Kernel) (stack : Fin 12 → BitVec 32) (params params' : SndPcmHwParams)
      (pcm pcm' : SndPcm) (err : Int) (h : Opened pcm)
      (hcall : snd_pcm_hw_params k stack pcm params = some (err, pcm', params')) : Opened pcm'
  | snd_pcm_sw_params (k : Kernel) (params : SndPcmSwParams) (pcm : SndPcm) (h : Opened pcm) :
      Opened (snd_pcm_sw_params k pcm params).2
  | snd_pcm_hw_free (k : Kernel) (pcm : SndPcm) (h : Opened pcm) : Opened (snd_pcm_hw_free k pcm).2
  | snd_pcm_prepare (k : Kernel) (pcm : SndPcm) (h : Opened pcm) : Opened (snd_pcm_prepare k pcm).2
  | snd_pcm_mmap_commit (offset frames : Uframes) (pcm : SndPcm) (h : Opened pcm) :
      Opened (snd_pcm_mmap_commit pcm offset frames).2
  | pointers (hw_ptr appl_ptr : Uframes) (pcm : SndPcm) (h : Opened pcm) :
      Opened { pcm with hw_ptr, appl_ptr }

/-- A PCM with what was done on it since `snd_pcm_hw_params`. -/
structure Ring where
  pcm : SndPcm
  /-- The frames committed. -/
  committed : Nat
  /-- The frames the hardware has consumed (playback) or captured. -/
  moved : Nat
  /-- What is left of the frames of the last `snd_pcm_mmap_begin`. -/
  granted : Nat

inductive Act where
  | begin (frames : Uframes)
  | commit (offset frames : Uframes)
  | advance (frames : Nat)

def step (s : Ring) : Act → Option Ring
  | .begin frames =>
    (snd_pcm_mmap_begin s.pcm frames).map fun (_, frames) => { s with granted := frames.toNat }
  | .commit offset frames =>
    some
      { s with
        pcm := (snd_pcm_mmap_commit s.pcm offset frames).2
        committed := s.committed + frames.toNat
        granted := s.granted - frames.toNat }
  | .advance frames =>
    let moved := s.moved + frames
    some
      { s with
        pcm := { s.pcm with hw_ptr := BitVec.ofNat 64 (moved % s.pcm.sw_params.boundary.toNat) }
        moved }

/-- The total up to which frames can have been committed. -/
def Ring.reach (s : Ring) : Nat :=
  match s.pcm.stream with
  | .playback => s.moved + s.pcm.buffer_size.toNat
  | .capture => s.moved

/-- The application commits what it was granted. The hardware does not pass the data, nor the
free space. -/
def Allowed (s : Ring) : Act → Prop
  | .begin _ => True
  | .commit _ frames => frames.toNat ≤ s.granted
  | .advance frames =>
    match s.pcm.stream with
    | .playback => s.moved + frames ≤ s.committed
    | .capture => s.moved + frames ≤ s.committed + s.pcm.buffer_size.toNat

/-- The frames that are free (playback) or captured and not yet taken. -/
def Ring.expected_avail (s : Ring) : Int :=
  match s.pcm.stream with
  | .playback => s.pcm.buffer_size.toNat - (s.committed - s.moved)
  | .capture => s.moved - s.committed

structure Accounts (s : Ring) : Prop where
  appl_ptr : s.pcm.appl_ptr < s.pcm.sw_params.boundary
  begin : ∀ frames, ∃ offset granted, snd_pcm_mmap_begin s.pcm frames = some (offset, granted) ∧
    offset.toNat = s.committed % s.pcm.buffer_size.toNat ∧
    offset.toNat + granted.toNat ≤ s.pcm.buffer_size.toNat
  avail : ((snd_pcm_mmap_avail s.pcm).toNat : Int) = s.expected_avail

/-- The step leaves the total that it moves below the boundary. -/
def BeforeWrap (s : Ring) : Act → Prop
  | .begin _ => True
  | .commit _ frames => s.committed + frames.toNat < s.pcm.sw_params.boundary.toNat
  | .advance frames => s.moved + frames < s.pcm.sw_params.boundary.toNat

/-! ## The boundary of the library -/

theorem opened_boundary (pcm : SndPcm) (h : Opened pcm) : pcm.boundary = 0#64 := by
  induction h with
  | snd_pcm_open stream => rfl
  | snd_pcm_hw_params k stack params params' pcm pcm' err h hcall ih =>
    exact (snd_pcm_hw_params_boundary k stack pcm pcm' params params' err hcall).trans ih
  | snd_pcm_sw_params k params pcm h ih => exact (snd_pcm_sw_params_boundary k pcm params).trans ih
  | snd_pcm_hw_free k pcm h ih => exact (snd_pcm_hw_free_boundary k pcm).trans ih
  | snd_pcm_prepare k pcm h ih => exact (snd_pcm_prepare_boundary k pcm).trans ih
  | snd_pcm_mmap_commit offset frames pcm h ih => exact ih
  | pointers hw_ptr appl_ptr pcm h ih => exact ih

/-- Without a boundary, the distance is the difference of the pointers as it comes out of the
word arithmetic. -/
theorem snd_pcm_mmap_avail_of_unset (pcm : SndPcm) (h : pcm.boundary = 0#64) :
    snd_pcm_mmap_avail pcm =
      match pcm.stream with
      | .playback => pcm.hw_ptr + pcm.buffer_size - pcm.appl_ptr
      | .capture => pcm.hw_ptr - pcm.appl_ptr := by
  unfold snd_pcm_mmap_avail
  cases pcm.stream with
  | playback =>
    simp only [snd_pcm_mmap_playback_avail, h, BitVec.add_zero, BitVec.sub_zero, ite_self]
  | capture => simp only [snd_pcm_mmap_capture_avail, h, BitVec.add_zero, ite_self]

theorem snd_pcm_mmap_commit_of_unset (pcm : SndPcm) (offset frames : Uframes)
    (h : pcm.boundary = 0#64) :
    (snd_pcm_mmap_commit pcm offset frames).2 = { pcm with appl_ptr := pcm.appl_ptr + frames } := by
  simp only [snd_pcm_mmap_commit, h, BitVec.sub_zero, ite_self]

/-! ## The invariant -/

/-- Before the boundary the pointers are the totals themselves. -/
structure Inv (s : Ring) : Prop where
  unset : s.pcm.boundary = 0#64
  size : 0 < s.pcm.buffer_size.toNat
  fits : s.pcm.sw_params.boundary.toNat + s.pcm.buffer_size.toNat ≤ LONG_MAX_U.toNat
  appl_ptr : s.pcm.appl_ptr.toNat = s.committed
  hw_ptr : s.pcm.hw_ptr.toNat = s.moved
  committed : s.committed < s.pcm.sw_params.boundary.toNat
  moved : s.moved < s.pcm.sw_params.boundary.toNat
  reached : s.committed + s.granted ≤ s.reach
  reach : s.reach ≤ s.committed + s.pcm.buffer_size.toNat
  room : s.committed % s.pcm.buffer_size.toNat + s.granted ≤ s.pcm.buffer_size.toNat

theorem avail_toNat (s : Ring) (h : Inv s) :
    (snd_pcm_mmap_avail s.pcm).toNat = s.reach - s.committed := by
  have hmax : LONG_MAX_U.toNat = 2 ^ 63 - 1 := rfl
  have ⟨_, _, hfits, happl, hhw, hcommitted, hmoved, hreached, hreach, _⟩ := h
  rw [snd_pcm_mmap_avail_of_unset s.pcm h.unset]
  unfold Ring.reach at hreach hreached ⊢
  cases hstream : s.pcm.stream with
  | playback =>
    simp only [hstream] at hreach hreached ⊢
    rw [BitVec.toNat_sub, BitVec.toNat_add, happl, hhw]
    omega
  | capture =>
    simp only [hstream] at hreach hreached ⊢
    rw [BitVec.toNat_sub, happl, hhw]
    omega

theorem expected_avail_eq (s : Ring) : s.expected_avail = (s.reach : Int) - s.committed := by
  unfold Ring.expected_avail Ring.reach
  cases s.pcm.stream with
  | playback => dsimp only; omega
  | capture => rfl

/-- The chunk granted ends with what is available, and with the buffer. -/
theorem begin_of_avail (s : Ring) (hsize : 0 < s.pcm.buffer_size.toNat)
    (hoffset : (s.pcm.appl_ptr % s.pcm.buffer_size).toNat = s.committed % s.pcm.buffer_size.toNat)
    (havail : (snd_pcm_mmap_avail s.pcm).toNat = s.reach - s.committed) (hreached : s.committed ≤ s.reach)
    (frames : Uframes) :
    ∃ offset granted, snd_pcm_mmap_begin s.pcm frames = some (offset, granted) ∧
      offset.toNat = s.committed % s.pcm.buffer_size.toNat ∧
      offset.toNat + granted.toNat ≤ s.pcm.buffer_size.toNat ∧
      s.committed + granted.toNat ≤ s.reach := by
  have hne : s.pcm.buffer_size ≠ 0#64 := by
    intro hzero
    rw [hzero] at hsize
    exact Nat.lt_irrefl 0 hsize
  have hmod := Nat.mod_lt s.committed hsize
  have hcont : (s.pcm.buffer_size - s.pcm.appl_ptr % s.pcm.buffer_size).toNat =
      s.pcm.buffer_size.toNat - s.committed % s.pcm.buffer_size.toNat := by
    rw [← hoffset]
    apply BitVec.toNat_sub_of_le
    rw [BitVec.le_def, hoffset]
    exact hmod.le
  unfold snd_pcm_mmap_begin
  rw [if_neg hne]
  refine ⟨_, _, rfl, hoffset, ?_, ?_⟩
  all_goals
    split_ifs <;> simp only [BitVec.lt_def, gt_iff_lt, not_lt] at * <;> omega

theorem begin_spec (s : Ring) (h : Inv s) (frames : Uframes) :
    ∃ offset granted, snd_pcm_mmap_begin s.pcm frames = some (offset, granted) ∧
      offset.toNat = s.committed % s.pcm.buffer_size.toNat ∧
      offset.toNat + granted.toNat ≤ s.pcm.buffer_size.toNat ∧
      s.committed + granted.toNat ≤ s.reach := by
  have hoffset : (s.pcm.appl_ptr % s.pcm.buffer_size).toNat = s.committed % s.pcm.buffer_size.toNat := by
    rw [BitVec.toNat_umod, h.appl_ptr]
  have hreached := h.reached
  exact begin_of_avail s h.size hoffset (avail_toNat s h) (by omega) frames

theorem Inv.accounts (s : Ring) (h : Inv s) : Accounts s := by
  refine ⟨?_, fun frames => ?_, ?_⟩
  · rw [BitVec.lt_def, h.appl_ptr]
    exact h.committed
  · obtain ⟨offset, granted, hbegin, hoffset, hroom, -⟩ := begin_spec s h frames
    exact ⟨offset, granted, hbegin, hoffset, hroom⟩
  · have := h.reached
    rw [expected_avail_eq, avail_toNat s h]
    omega

/-- The chunk at the front of the buffer shrinks by what is committed, and a whole chunk leads
back to the start. -/
theorem room_of_commit (committed granted frames size : Nat) (hsize : 0 < size)
    (hroom : committed % size + granted ≤ size) (hframes : frames ≤ granted) :
    (committed + frames) % size + (granted - frames) ≤ size := by
  by_cases hfull : committed % size + frames = size
  · have hmod : (committed + frames) % size = 0 := by
      rw [Nat.add_mod, ← Nat.mod_add_mod, Nat.mod_mod, Nat.add_mod_mod, hfull, Nat.mod_self]
    omega
  · have hmod : (committed + frames) % size = committed % size + frames := by
      rw [← Nat.mod_add_mod, Nat.mod_eq_of_lt (by omega)]
    omega

theorem step_beforeWrap (s : Ring) (a : Act) (h : Inv s) (hallowed : Allowed s a)
    (hok : BeforeWrap s a) : ∃ s', step s a = some s' ∧ Inv s' := by
  have hmax : LONG_MAX_U.toNat = 2 ^ 63 - 1 := rfl
  have hfits := h.fits
  have hreached := h.reached
  have hreach := h.reach
  cases a with
  | begin frames =>
    obtain ⟨offset, granted, hbegin, hoffset, hroom, hgranted⟩ := begin_spec s h frames
    refine ⟨_, by rw [step, hbegin]; rfl, ?_⟩
    exact { h with reached := hgranted, room := hoffset ▸ hroom }
  | commit offset frames =>
    have hbelow : s.committed + frames.toNat < s.pcm.sw_params.boundary.toNat := hok
    have hgranted : frames.toNat ≤ s.granted := hallowed
    have happl : (s.pcm.appl_ptr + frames).toNat = s.committed + frames.toNat := by
      rw [BitVec.toNat_add, h.appl_ptr, Nat.mod_eq_of_lt (by omega)]
    refine ⟨_, rfl, ?_⟩
    rw [snd_pcm_mmap_commit_of_unset s.pcm offset frames h.unset]
    refine { h with appl_ptr := happl, committed := hbelow, reached := ?_, reach := ?_, room := ?_ }
    · change s.committed + frames.toNat + (s.granted - frames.toNat) ≤ s.reach
      omega
    · change s.reach ≤ s.committed + frames.toNat + s.pcm.buffer_size.toNat
      omega
    · exact room_of_commit _ _ _ _ h.size h.room hgranted
  | advance frames =>
    have hbelow : s.moved + frames < s.pcm.sw_params.boundary.toNat := hok
    refine ⟨_, rfl, ?_⟩
    refine { h with hw_ptr := ?_, moved := hbelow, reached := ?_, reach := ?_ }
    · rw [BitVec.toNat_ofNat, Nat.mod_eq_of_lt hbelow, Nat.mod_eq_of_lt (by omega)]
    all_goals
      unfold Ring.reach at hreached hreach ⊢
      unfold Allowed at hallowed
      cases hstream : s.pcm.stream <;> simp only [hstream] at hreached hreach hallowed ⊢ <;> omega

/-- The step that reaches the boundary breaks the accounts: `appl_ptr` stands at the boundary or
above, or `hw_ptr` has wrapped without it. -/
theorem step_wrap (s s' : Ring) (a : Act) (h : Inv s) (hallowed : Allowed s a)
    (hbad : ¬ BeforeWrap s a) (hstep : step s a = some s') : ¬ Accounts s' := by
  have hmax : LONG_MAX_U.toNat = 2 ^ 63 - 1 := rfl
  have hfits := h.fits
  have hcommitted := h.committed
  have hreached := h.reached
  have hreach := h.reach
  intro haccounts
  cases a with
  | begin frames => exact hbad trivial
  | commit offset frames =>
    have habove : s.pcm.sw_params.boundary.toNat ≤ s.committed + frames.toNat := Nat.not_lt.mp hbad
    have hgranted : frames.toNat ≤ s.granted := hallowed
    have hroom := h.room
    cases hstep
    have hlt := haccounts.appl_ptr
    rw [snd_pcm_mmap_commit_of_unset s.pcm offset frames h.unset] at hlt
    simp only [BitVec.lt_def, BitVec.toNat_add, h.appl_ptr] at hlt
    rw [Nat.mod_eq_of_lt (by omega)] at hlt
    omega
  | advance frames =>
    have habove : s.pcm.sw_params.boundary.toNat ≤ s.moved + frames := Nat.not_lt.mp hbad
    have hwrapped : (s.moved + frames) % s.pcm.sw_params.boundary.toNat <
        s.pcm.sw_params.boundary.toNat := Nat.mod_lt _ (by omega)
    cases hstep
    have havail := haccounts.avail
    rw [expected_avail_eq, snd_pcm_mmap_avail_of_unset _ (by exact h.unset)] at havail
    unfold Ring.reach at havail hreached hreach
    unfold Allowed at hallowed
    cases hstream : s.pcm.stream with
    | playback =>
      simp only [hstream] at hallowed
      omega
    | capture =>
      simp only [hstream, BitVec.toNat_sub, BitVec.toNat_ofNat, h.appl_ptr] at havail hallowed
      omega

/-! ## Laps around the buffer -/

/-- A whole buffer is written, and the hardware plays it. -/
def lap (size : Uframes) : List Act := [.begin size, .commit 0#64 size, .advance size.toNat]

def laps (size : Uframes) : Nat → List Act
  | 0 => []
  | n + 1 => lap size ++ laps size n

/-- Playback has caught up with the application, at the start of the buffer. -/
structure AtStart (s : Ring) : Prop where
  playback : s.pcm.stream = .playback
  moved : s.moved = s.committed
  aligned : s.committed % s.pcm.buffer_size.toNat = 0

theorem begin_atStart (s : Ring) (h : Inv s) (hs : AtStart s) :
    snd_pcm_mmap_begin s.pcm s.pcm.buffer_size = some (0#64, s.pcm.buffer_size) := by
  obtain ⟨offset, granted, hbegin, hoffset, hroom, hreached⟩ := begin_spec s h s.pcm.buffer_size
  have havail : snd_pcm_mmap_avail s.pcm = s.pcm.buffer_size := by
    apply BitVec.eq_of_toNat_eq
    rw [avail_toNat s h, Ring.reach, hs.playback, hs.moved]
    exact Nat.add_sub_cancel_left ..
  have hzero : s.pcm.appl_ptr % s.pcm.buffer_size = 0#64 := by
    apply BitVec.eq_of_toNat_eq
    rw [BitVec.toNat_umod, h.appl_ptr, hs.aligned]
    rfl
  unfold snd_pcm_mmap_begin at hbegin ⊢
  split at hbegin
  · exact absurd hbegin (by simp)
  · rename_i hsize
    rw [if_neg hsize]
    simp only [hzero, havail, BitVec.sub_zero, gt_iff_lt, BitVec.lt_irrefl, if_false]

def lapped (s : Ring) : Ring :=
  { pcm :=
      { (snd_pcm_mmap_commit s.pcm 0#64 s.pcm.buffer_size).2 with
        hw_ptr :=
          BitVec.ofNat 64 ((s.moved + s.pcm.buffer_size.toNat) % s.pcm.sw_params.boundary.toNat) }
    committed := s.committed + s.pcm.buffer_size.toNat
    moved := s.moved + s.pcm.buffer_size.toNat
    granted := s.pcm.buffer_size.toNat - s.pcm.buffer_size.toNat }

theorem lap_allSteps (s : Ring) (h : Inv s) (hs : AtStart s) (acts : List Act) :
    (AllSteps step Allowed s (lap s.pcm.buffer_size ++ acts) ↔ AllSteps step Allowed (lapped s) acts) ∧
      (AllSteps step BeforeWrap s (lap s.pcm.buffer_size ++ acts) ↔
        s.committed + s.pcm.buffer_size.toNat < s.pcm.sw_params.boundary.toNat ∧
          AllSteps step BeforeWrap (lapped s) acts) := by
  have hbegin : step s (.begin s.pcm.buffer_size) =
      some { s with granted := s.pcm.buffer_size.toNat } := by
    rw [step, begin_atStart s h hs]
    rfl
  have hcommit (t : Ring) : step t (.commit 0#64 s.pcm.buffer_size) = some _ := rfl
  have hadvance (t : Ring) : step t (.advance s.pcm.buffer_size.toNat) = some _ := rfl
  have hmoved := hs.moved
  simp only [lap, List.cons_append, List.nil_append, allSteps_cons_iff _ _ _ _ _ hbegin,
    allSteps_cons_iff _ _ _ _ _ (hcommit _), allSteps_cons_iff _ _ _ _ _ (hadvance _)]
  constructor
  · constructor
    · rintro ⟨-, -, -, hrest⟩
      exact hrest
    · intro hrest
      refine ⟨trivial, Nat.le_refl _, ?_, hrest⟩
      simp only [Allowed, snd_pcm_mmap_commit, hs.playback]
      omega
  · constructor
    · rintro ⟨-, hcommit, -, hrest⟩
      exact ⟨hcommit, hrest⟩
    · rintro ⟨hbelow, hrest⟩
      refine ⟨trivial, hbelow, ?_, hrest⟩
      change s.moved + s.pcm.buffer_size.toNat < s.pcm.sw_params.boundary.toNat
      omega

theorem lapped_atStart (s : Ring) (h : Inv s) (hs : AtStart s)
    (hbelow : s.committed + s.pcm.buffer_size.toNat < s.pcm.sw_params.boundary.toNat) :
    Inv (lapped s) ∧ AtStart (lapped s) := by
  have hfits := h.fits
  have hmoved := hs.moved
  have hcommit := snd_pcm_mmap_commit_of_unset s.pcm 0#64 s.pcm.buffer_size h.unset
  have haligned : (s.committed + s.pcm.buffer_size.toNat) % s.pcm.buffer_size.toNat = 0 := by
    rw [Nat.add_mod_right, hs.aligned]
  have hmax : LONG_MAX_U.toNat = 2 ^ 63 - 1 := rfl
  unfold lapped
  rw [hcommit]
  refine ⟨{ h with appl_ptr := ?_, hw_ptr := ?_, committed := hbelow, moved := ?_, reached := ?_,
                   reach := ?_, room := ?_ }, ⟨hs.playback, ?_, haligned⟩⟩
  · rw [BitVec.toNat_add, h.appl_ptr, Nat.mod_eq_of_lt (by omega)]
  · rw [hmoved, BitVec.toNat_ofNat, Nat.mod_eq_of_lt hbelow, Nat.mod_eq_of_lt (by omega)]
  · change s.moved + s.pcm.buffer_size.toNat < s.pcm.sw_params.boundary.toNat
    omega
  · simp only [Ring.reach, hs.playback]
    omega
  · simp only [Ring.reach, hs.playback]
    omega
  · simp only [haligned]
    omega
  · exact congrArg (· + s.pcm.buffer_size.toNat) hmoved

/-- The laps up to the boundary are allowed, and the last of them reaches it. -/
theorem laps_wrap (n : Nat) (s : Ring) (h : Inv s) (hs : AtStart s)
    (hn : s.committed + (n + 1) * s.pcm.buffer_size.toNat = s.pcm.sw_params.boundary.toNat) :
    AllSteps step Allowed s (laps s.pcm.buffer_size (n + 1)) ∧
      ¬ AllSteps step BeforeWrap s (laps s.pcm.buffer_size (n + 1)) := by
  induction n generalizing s with
  | zero =>
    unfold laps
    obtain ⟨hallowed, hbefore⟩ := lap_allSteps s h hs (laps s.pcm.buffer_size 0)
    rw [hallowed, hbefore]
    exact ⟨trivial, fun hwrap => absurd hwrap.1 (by omega)⟩
  | succ n ih =>
    rw [laps]
    obtain ⟨hallowed, hbefore⟩ := lap_allSteps s h hs (laps s.pcm.buffer_size (n + 1))
    rw [hallowed, hbefore]
    have hrest : 0 < (n + 1) * s.pcm.buffer_size.toNat := Nat.mul_pos n.succ_pos h.size
    have hsum := Nat.add_one_mul (n + 1) s.pcm.buffer_size.toNat
    have hbelow : s.committed + s.pcm.buffer_size.toNat < s.pcm.sw_params.boundary.toNat := by omega
    obtain ⟨hinv, hat⟩ := lapped_atStart s h hs hbelow
    obtain ⟨hnext, hwrap⟩ := ih (lapped s) hinv hat (by
      change s.committed + s.pcm.buffer_size.toNat + (n + 1) * s.pcm.buffer_size.toNat =
        s.pcm.sw_params.boundary.toNat
      omega)
    exact ⟨hnext, fun hlap => hwrap hlap.2⟩

/-! ## A setting -/

/-- A kernel that takes everything as it is. -/
def willing : Kernel :=
  { hw_refine := fun params => (0, params), hw_free := 0, hw_params := fun params => (0, params),
    sw_params := fun _ => 0, mmap := 0, prepare := 0 }

/-- Each parameter has one value; the buffer has 1024 frames. -/
def settled : SndPcmHwParams :=
  { flags := 0, masks := fun _ => ⟨fun w => if w = 0 then 1#32 else 0#32⟩, mres := fun _ => mask_clear,
    intervals := fun n => point (if n = BUFFER_SIZE then 1024#32 else 256#32),
    ires := fun _ => point 0#32, rmask := 0, cmask := 0, info := 0, msbits := 0, rate_num := 0,
    rate_den := 0, fifo_size := 0, reserved := fun _ => 0 }

/-- What `snd_pcm_hw_params` makes of `settled`. -/
def ready : SndPcm :=
  { stream := .playback, setup := true
    sw_params :=
      { tstamp_mode := 0, period_step := 1, sleep_min := 0, avail_min := 256, xfer_align := 256,
        start_threshold := 1, stop_threshold := 1024, silence_threshold := 0, silence_size := 0,
        boundary := 0x4000000000000000#64, tstamp_type := 0 }
    _access := 0, format := 0, subformat := 0, channels := 256, rate := 256, period_size := 256,
    period_time := 256, boundary := 0, buffer_size := 1024, hw_ptr := 0, appl_ptr := 0, avail_min := 256 }

theorem snd_pcm_hw_params_ready : ∃ params,
    snd_pcm_hw_params willing (fun _ => 0#32) (snd_pcm_open .playback) settled =
      some (0, ready, params) := by
  have hready : (snd_pcm_hw_params willing (fun _ => 0#32) (snd_pcm_open .playback) settled).map
      (fun r => (r.1, r.2.1)) = some (0, ready) := by
    decide +kernel
  obtain ⟨⟨err, pcm, params⟩, hcall, heq⟩ := Option.map_eq_some_iff.mp hready
  cases heq
  exact ⟨params, hcall⟩

/-! ## Whole runs -/

/-- The state after a successful `snd_pcm_hw_params`. -/
def Ring.start (pcm : SndPcm) : Ring := { pcm, committed := 0, moved := 0, granted := 0 }

theorem inv_start (pcm : SndPcm) (hunset : pcm.boundary = 0#64) (h : SetUp pcm) :
    Inv (Ring.start pcm) := by
  have hsize := h.size
  have hbelow := h.below
  refine ⟨hunset, hsize, h.fits, by rw [Ring.start, h.appl_ptr]; rfl, by rw [Ring.start, h.hw_ptr]; rfl,
    ?_, ?_, ?_, ?_, ?_⟩
  · exact hsize.trans_le hbelow
  · exact hsize.trans_le hbelow
  · exact Nat.zero_le _
  · unfold Ring.reach Ring.start
    cases pcm.stream <;> simp
  · simp [Ring.start]

theorem accounts_iff_of_inv (s : Ring) (h : Inv s) (acts : List Act)
    (hallowed : AllSteps step Allowed s acts) :
    AllStates step Accounts s acts ↔ AllSteps step BeforeWrap s acts := by
  apply allStates_iff_allSteps Inv Accounts Allowed BeforeWrap Inv.accounts step_beforeWrap
  · intro s a s' h hallowed hbad hstep
    exact step_wrap s s' a h hallowed hbad hstep
  · exact h
  · exact hallowed

/-- After `snd_pcm_hw_params`, the accounts hold all along a run exactly when no step of it
reaches the boundary. -/
theorem accounts_iff_beforeWrap (k : Kernel) (stack : Fin 12 → BitVec 32) (pcm pcm' : SndPcm)
    (params params' : SndPcmHwParams) (hopened : Opened pcm) (hk : ∀ sw, k.sw_params sw = 0)
    (hcall : snd_pcm_hw_params k stack pcm params = some (0, pcm', params')) (acts : List Act)
    (hallowed : AllSteps step Allowed (Ring.start pcm') acts) :
    AllStates step Accounts (Ring.start pcm') acts ↔
      AllSteps step BeforeWrap (Ring.start pcm') acts := by
  have hunset : pcm'.boundary = 0#64 :=
    (snd_pcm_hw_params_boundary k stack pcm pcm' params params' 0 hcall).trans
      (opened_boundary pcm hopened)
  have hsetUp := snd_pcm_hw_params_setUp k stack pcm pcm' params params' hk hcall
  exact accounts_iff_of_inv _ (inv_start pcm' hunset hsetUp) acts hallowed

theorem accounts_ready : ∃ params,
    snd_pcm_hw_params willing (fun _ => 0#32) (snd_pcm_open .playback) settled =
        some (0, ready, params) ∧
      AllStates step Accounts (Ring.start ready) (lap 1024#64) := by
  obtain ⟨params, hcall⟩ := snd_pcm_hw_params_ready
  have hsetUp := snd_pcm_hw_params_setUp willing _ _ ready _ params (fun _ => rfl) hcall
  obtain ⟨hallowed, hbefore⟩ :=
    lap_allSteps (Ring.start ready) (inv_start ready rfl hsetUp) ⟨rfl, rfl, rfl⟩ []
  refine ⟨params, hcall, ?_⟩
  apply (accounts_iff_beforeWrap willing _ _ ready _ params (.snd_pcm_open .playback) (fun _ => rfl) hcall
    _ (hallowed.mpr trivial)).mpr
  exact hbefore.mpr ⟨by decide, trivial⟩

/-- 2^52 times the buffer of 1024 frames is the boundary of 2^62 frames: there the accounts of
`ready` end. -/
theorem laps_break_accounts : ∃ params,
    snd_pcm_hw_params willing (fun _ => 0#32) (snd_pcm_open .playback) settled =
        some (0, ready, params) ∧
      AllSteps step Allowed (Ring.start ready) (laps 1024#64 (2 ^ 52)) ∧
      ¬ AllStates step Accounts (Ring.start ready) (laps 1024#64 (2 ^ 52)) := by
  obtain ⟨params, hcall⟩ := snd_pcm_hw_params_ready
  have hsetUp := snd_pcm_hw_params_setUp willing _ _ ready _ params (fun _ => rfl) hcall
  have hinv := inv_start ready rfl hsetUp
  obtain ⟨hallowed, hwrap⟩ := laps_wrap (2 ^ 52 - 1) (Ring.start ready) hinv ⟨rfl, rfl, rfl⟩ rfl
  have hlaps : 2 ^ 52 - 1 + 1 = 2 ^ 52 := rfl
  have hsize : (Ring.start ready).pcm.buffer_size = 1024#64 := rfl
  rw [hlaps, hsize] at hallowed hwrap
  refine ⟨params, hcall, hallowed, ?_⟩
  rw [accounts_iff_of_inv _ hinv _ hallowed]
  exact hwrap

end Salsa.Pcm
