import Salsa.Pcm.Ring
import Salsa.Lib.Wrap

/-!
# Distances on the ring

What the pointers say where `pcm->boundary` is a wrap point as `snd_pcm_sw_params_default` computes it: a multiple of
the buffer size that leaves room for another buffer. One correction is then enough for each distance.
-/

namespace Salsa.Pcm

open Wrap Run

/-! ## The setting -/

/-- The pointers are on a ring of whole buffers. -/
structure OnRing (pcm : SndPcm) : Prop where
  size : 1 ≤ pcm.buffer_size.toNat
  whole : pcm.buffer_size.toNat ∣ pcm.boundary.toNat
  two : 2 * pcm.buffer_size.toNat ≤ pcm.boundary.toNat
  fits : pcm.boundary.toNat + pcm.buffer_size.toNat ≤ LONG_MAX_U.toNat
  hw_ptr : pcm.hw_ptr < pcm.boundary
  appl_ptr : pcm.appl_ptr < pcm.boundary

/-- The frames written and not yet played. -/
def queued (pcm : SndPcm) : ℤ := ((pcm.appl_ptr.toNat : ℤ) - pcm.hw_ptr.toNat) % pcm.boundary.toNat

/-- The frames by which the hardware is ahead. -/
def overrun (pcm : SndPcm) : ℤ := ((pcm.hw_ptr.toNat : ℤ) - pcm.appl_ptr.toNat) % pcm.boundary.toNat

/-! ## The code corrects once -/

theorem playback_corrected (pcm : SndPcm) : snd_pcm_mmap_playback_avail pcm =
    corrected pcm.boundary (pcm.hw_ptr + pcm.buffer_size - pcm.appl_ptr) := rfl

theorem commit_reduced (pcm : SndPcm) (offset frames : Uframes) : snd_pcm_mmap_commit pcm offset frames =
    (frames, { pcm with appl_ptr := reduced pcm.boundary (pcm.appl_ptr + frames) }) := rfl

theorem toInt_sub_words (a b : Uframes) (ha : a.toNat < 2 ^ 63) (hb : b.toNat < 2 ^ 63) :
    (a - b).toInt = (a.toNat : ℤ) - b.toNat := by
  rw [BitVec.toInt_eq_toNat_cond, BitVec.toNat_sub]
  omega

section Avail

variable (pcm : SndPcm) (h : OnRing pcm)

include h

theorem avail_fits : pcm.hw_ptr.toNat < pcm.boundary.toNat ∧ pcm.appl_ptr.toNat < pcm.boundary.toNat ∧
    pcm.boundary.toNat + pcm.buffer_size.toNat ≤ 2 ^ 63 - 1 :=
  ⟨h.hw_ptr, h.appl_ptr, h.fits⟩

theorem capture_avail_spec : ((snd_pcm_mmap_capture_avail pcm).toNat : ℤ) = overrun pcm := by
  obtain ⟨hhw, happl, hfits⟩ := avail_fits pcm h
  have hd := toInt_sub_words pcm.hw_ptr pcm.appl_ptr (by omega) (by omega)
  have hcorrected : snd_pcm_mmap_capture_avail pcm = corrected pcm.boundary (pcm.hw_ptr - pcm.appl_ptr) := by
    unfold snd_pcm_mmap_capture_avail corrected
    dsimp only
    split
    · rfl
    · rename_i hneg
      rw [if_neg]
      intro hover
      have hle : pcm.boundary.toNat ≤ (pcm.hw_ptr - pcm.appl_ptr).toNat := hover
      rw [BitVec.slt_eq_decide, BitVec.toInt_zero, hd, decide_eq_true_iff] at hneg
      rw [BitVec.toNat_sub] at hle
      omega
  rw [hcorrected, corrected_spec _ _ (by omega) (by omega), hd]
  rfl

theorem playback_avail_spec : ((snd_pcm_mmap_playback_avail pcm).toNat : ℤ) =
    ((pcm.hw_ptr.toNat : ℤ) + pcm.buffer_size.toNat - pcm.appl_ptr.toNat) % pcm.boundary.toNat := by
  obtain ⟨hhw, happl, hfits⟩ := avail_fits pcm h
  have htwo := h.two
  have hsum : (pcm.hw_ptr + pcm.buffer_size).toNat = pcm.hw_ptr.toNat + pcm.buffer_size.toNat := by
    rw [BitVec.toNat_add, Nat.mod_eq_of_lt (by omega)]
  have hd := toInt_sub_words (pcm.hw_ptr + pcm.buffer_size) pcm.appl_ptr (by omega) (by omega)
  rw [hsum] at hd
  rw [playback_corrected, corrected_spec _ _ (by omega) (by omega), hd]
  push_cast
  rfl

/-- Counted from the frames queued, what is free passes the buffer size in an overrun. -/
theorem playback_avail_queued :
    (queued pcm ≤ pcm.buffer_size.toNat →
      ((snd_pcm_mmap_playback_avail pcm).toNat : ℤ) = pcm.buffer_size.toNat - queued pcm) ∧
    (pcm.buffer_size.toNat < queued pcm →
      ((snd_pcm_mmap_playback_avail pcm).toNat : ℤ) = pcm.buffer_size.toNat + overrun pcm) := by
  obtain ⟨hhw, happl, hfits⟩ := avail_fits pcm h
  have hsize := h.size
  have htwo := h.two
  rw [playback_avail_spec pcm h]
  unfold queued overrun
  rcases lt_or_ge pcm.appl_ptr.toNat pcm.hw_ptr.toNat with hlt | hge
  · -- The hardware is ahead, or the application has wrapped.
    have hqueued := emod_of_neg ((pcm.appl_ptr.toNat : ℤ) - pcm.hw_ptr.toNat) pcm.boundary.toNat (by omega) (by omega)
    have hover : ((pcm.hw_ptr.toNat : ℤ) - pcm.appl_ptr.toNat) % pcm.boundary.toNat =
        (pcm.hw_ptr.toNat : ℤ) - pcm.appl_ptr.toNat := Int.emod_eq_of_lt (by omega) (by omega)
    rw [hqueued, hover]
    constructor
    · intro hle
      rw [emod_of_over _ _ (by omega) (by omega)]
      omega
    · intro hgt
      rw [Int.emod_eq_of_lt (by omega) (by omega)]
      omega
  · have hqueued : ((pcm.appl_ptr.toNat : ℤ) - pcm.hw_ptr.toNat) % pcm.boundary.toNat =
        (pcm.appl_ptr.toNat : ℤ) - pcm.hw_ptr.toNat := Int.emod_eq_of_lt (by omega) (by omega)
    rw [hqueued]
    constructor
    · intro hle
      rw [Int.emod_eq_of_lt (by omega) (by omega)]
      omega
    · intro hgt
      rw [emod_of_neg _ _ (by omega) (by omega), emod_of_neg _ _ (by omega) (by omega)]
      omega

theorem commit_spec (offset frames : Uframes) (hframes : frames.toNat ≤ pcm.boundary.toNat) :
    snd_pcm_mmap_commit pcm offset frames =
        (frames, { pcm with appl_ptr := (snd_pcm_mmap_commit pcm offset frames).2.appl_ptr }) ∧
      (snd_pcm_mmap_commit pcm offset frames).2.appl_ptr.toNat =
        (pcm.appl_ptr.toNat + frames.toNat) % pcm.boundary.toNat := by
  obtain ⟨hhw, happl, hfits⟩ := avail_fits pcm h
  have hsum : (pcm.appl_ptr + frames).toNat = pcm.appl_ptr.toNat + frames.toNat := by
    rw [BitVec.toNat_add, Nat.mod_eq_of_lt (by omega)]
  refine ⟨rfl, ?_⟩
  rw [commit_reduced, ← hsum]
  exact reduced_spec _ _ (by omega)

end Avail

/-- The application's pointer goes on by the frames, on the ring and in the buffer. -/
structure Advances (pcm pcm' : SndPcm) (frames : Uframes) : Prop where
  frame : pcm' = { pcm with appl_ptr := pcm'.appl_ptr }
  below : pcm'.appl_ptr < pcm.boundary
  lap : pcm'.appl_ptr.toNat = (pcm.appl_ptr.toNat + frames.toNat) % pcm.boundary.toNat
  offset : pcm'.appl_ptr.toNat % pcm.buffer_size.toNat =
    (pcm.appl_ptr.toNat + frames.toNat) % pcm.buffer_size.toNat

theorem commit_advances (pcm : SndPcm) (h : OnRing pcm) (offset frames : Uframes)
    (hframes : frames.toNat ≤ pcm.boundary.toNat) :
    Advances pcm (snd_pcm_mmap_commit pcm offset frames).2 frames := by
  have hlap := (commit_spec pcm h offset frames hframes).2
  have htwo := h.two
  have hsize := h.size
  refine ⟨rfl, ?_, hlap, ?_⟩
  · rw [BitVec.lt_def, hlap]
    exact Nat.mod_lt _ (by omega)
  · rw [hlap, Nat.mod_mod_of_dvd _ h.whole]

/-- The distances are those on the ring, in either direction and in an overrun, and a commit stays on it. -/
theorem ring_distances (pcm : SndPcm) (h : OnRing pcm) :
    ((snd_pcm_mmap_capture_avail pcm).toNat : ℤ) =
        ((pcm.hw_ptr.toNat : ℤ) - pcm.appl_ptr.toNat) % pcm.boundary.toNat ∧
      ((snd_pcm_mmap_playback_avail pcm).toNat : ℤ) =
        ((pcm.hw_ptr.toNat : ℤ) + pcm.buffer_size.toNat - pcm.appl_ptr.toNat) % pcm.boundary.toNat ∧
      (queued pcm ≤ pcm.buffer_size.toNat →
        ((snd_pcm_mmap_playback_avail pcm).toNat : ℤ) = pcm.buffer_size.toNat - queued pcm) ∧
      (pcm.buffer_size.toNat < queued pcm →
        ((snd_pcm_mmap_playback_avail pcm).toNat : ℤ) = pcm.buffer_size.toNat + overrun pcm) ∧
      ∀ offset frames, frames.toNat ≤ pcm.boundary.toNat →
        (snd_pcm_mmap_commit pcm offset frames).1 = frames ∧
          Advances pcm (snd_pcm_mmap_commit pcm offset frames).2 frames := by
  obtain ⟨hqueued, hover⟩ := playback_avail_queued pcm h
  exact ⟨capture_avail_spec pcm h, playback_avail_spec pcm h, hqueued, hover,
    fun offset frames hframes => ⟨rfl, commit_advances pcm h offset frames hframes⟩⟩

/-- A ring of two buffers of four frames, on which the application has wrapped. -/
def small_ring : SndPcm :=
  { snd_pcm_open .playback with buffer_size := 4#64, boundary := 8#64, hw_ptr := 7#64, appl_ptr := 1#64 }

theorem small_onRing : OnRing small_ring := ⟨by decide, by decide, by decide, by decide, by decide, by decide⟩

/-- Two frames are queued, and two are free. -/
theorem ring_distances_small : ((snd_pcm_mmap_playback_avail small_ring).toNat : ℤ) = 2 ∧
    Advances small_ring (snd_pcm_mmap_commit small_ring 1#64 2#64).2 2#64 := by
  obtain ⟨-, -, hqueued, -, hcommit⟩ := ring_distances small_ring small_onRing
  exact ⟨(hqueued (by decide)).trans (by decide), (hcommit 1#64 2#64 (by decide)).2⟩

/-! ## Runs with the boundary stored

If `snd_pcm_hw_params` stored the boundary that it sends to the kernel, the accounts of a run would hold past the wrap
point too: the pointers are the totals on the ring.
-/

structure Wrapped (s : Ring) : Prop where
  stored : s.pcm.boundary = s.pcm.sw_params.boundary
  ring : OnRing s.pcm
  appl_ptr : s.pcm.appl_ptr.toNat = s.committed % s.pcm.boundary.toNat
  hw_ptr : s.pcm.hw_ptr.toNat = s.moved % s.pcm.boundary.toNat
  reached : s.committed + s.granted ≤ s.reach
  reach : s.reach ≤ s.committed + s.pcm.buffer_size.toNat
  room : s.committed % s.pcm.buffer_size.toNat + s.granted ≤ s.pcm.buffer_size.toNat

/-- What is left of the totals is less than the ring, so nothing is lost on it. -/
theorem wrapped_avail (s : Ring) (h : Wrapped s) : (snd_pcm_mmap_avail s.pcm).toNat = s.reach - s.committed := by
  have hreached := h.reached
  have hreach := h.reach
  have hsize := h.ring.size
  have htwo := h.ring.two
  have hleft : ((s.reach : ℤ) - s.committed) % s.pcm.boundary.toNat = (s.reach : ℤ) - s.committed :=
    Int.emod_eq_of_lt (by omega) (by omega)
  have havail : ((snd_pcm_mmap_avail s.pcm).toNat : ℤ) = ((s.reach : ℤ) - s.committed) % s.pcm.boundary.toNat := by
    unfold snd_pcm_mmap_avail Ring.reach
    cases s.pcm.stream with
    | playback =>
      dsimp only
      rw [playback_avail_spec s.pcm h.ring, h.appl_ptr, h.hw_ptr]
      push_cast
      rw [Int.sub_emod, Int.emod_add_emod, Int.emod_emod, ← Int.sub_emod]
    | capture =>
      dsimp only
      rw [capture_avail_spec s.pcm h.ring, overrun, h.appl_ptr, h.hw_ptr]
      push_cast
      rw [← Int.sub_emod]
  omega

theorem wrapped_begin (s : Ring) (h : Wrapped s) (frames : Uframes) :
    ∃ offset granted, snd_pcm_mmap_begin s.pcm frames = some (offset, granted) ∧
      offset.toNat = s.committed % s.pcm.buffer_size.toNat ∧
      offset.toNat + granted.toNat ≤ s.pcm.buffer_size.toNat ∧
      s.committed + granted.toNat ≤ s.reach := by
  have hoffset : (s.pcm.appl_ptr % s.pcm.buffer_size).toNat = s.committed % s.pcm.buffer_size.toNat := by
    rw [BitVec.toNat_umod, h.appl_ptr, Nat.mod_mod_of_dvd _ h.ring.whole]
  have hreached := h.reached
  exact begin_of_avail s h.ring.size hoffset (wrapped_avail s h) (by omega) frames

theorem Wrapped.accounts (s : Ring) (h : Wrapped s) : Accounts s := by
  refine ⟨h.stored ▸ h.ring.appl_ptr, fun frames => ?_, ?_⟩
  · obtain ⟨offset, granted, hbegin, hoffset, hroom, -⟩ := wrapped_begin s h frames
    exact ⟨offset, granted, hbegin, hoffset, hroom⟩
  · have hreached := h.reached
    rw [expected_avail_eq, wrapped_avail s h]
    omega

theorem step_wrapped (s : Ring) (a : Act) (h : Wrapped s) (hallowed : Allowed s a) :
    ∃ s', step s a = some s' ∧ Wrapped s' := by
  have hreached := h.reached
  have hreach := h.reach
  have hring := h.ring
  cases a with
  | begin frames =>
    obtain ⟨offset, granted, hbegin, hoffset, hroom, hgranted⟩ := wrapped_begin s h frames
    refine ⟨_, by rw [step, hbegin]; rfl, ?_⟩
    exact { h with reached := hgranted, room := hoffset ▸ hroom }
  | commit offset frames =>
    have hgranted : frames.toNat ≤ s.granted := hallowed
    have hroom := h.room
    have htwo := hring.two
    obtain ⟨-, hbelow, hlap, -⟩ := commit_advances s.pcm hring offset frames (by omega)
    rw [h.appl_ptr, Nat.mod_add_mod] at hlap
    refine ⟨_, rfl, ?_⟩
    refine { h with
      ring := { hring with appl_ptr := hbelow }, appl_ptr := hlap, reached := ?_, reach := ?_, room := ?_ }
    · change s.committed + frames.toNat + (s.granted - frames.toNat) ≤ s.reach
      omega
    · change s.reach ≤ s.committed + frames.toNat + s.pcm.buffer_size.toNat
      omega
    · exact room_of_commit _ _ _ _ hring.size h.room hgranted
  | advance frames =>
    have hsize := hring.size
    have htwo := hring.two
    have hword : s.pcm.sw_params.boundary.toNat < 2 ^ 64 := s.pcm.sw_params.boundary.isLt
    have hstored := congrArg BitVec.toNat h.stored
    have hlt : (s.moved + frames) % s.pcm.sw_params.boundary.toNat < s.pcm.sw_params.boundary.toNat :=
      Nat.mod_lt _ (by omega)
    have hhw : (BitVec.ofNat 64 ((s.moved + frames) % s.pcm.sw_params.boundary.toNat)).toNat =
        (s.moved + frames) % s.pcm.boundary.toNat := by
      rw [BitVec.toNat_ofNat, Nat.mod_eq_of_lt (by omega), hstored]
    refine ⟨_, rfl, ?_⟩
    refine { h with ring := { hring with hw_ptr := ?_ }, hw_ptr := hhw, reached := ?_, reach := ?_ }
    · rw [BitVec.lt_def, hhw, hstored]
      exact hlt
    all_goals
      unfold Ring.reach at hreached hreach ⊢
      unfold Allowed at hallowed
      cases hstream : s.pcm.stream <;> simp only [hstream] at hreached hreach hallowed ⊢ <;> omega

/-- With the boundary stored, every allowed run keeps its accounts, wherever the pointers wrap. -/
theorem wrapped_accounts (s : Ring) (acts : List Act) (h : Wrapped s) (hallowed : AllSteps step Allowed s acts) :
    AllStates step Accounts s acts :=
  allStates_of_allSteps Wrapped Accounts Allowed Wrapped.accounts step_wrapped s acts h hallowed

end Salsa.Pcm
