import Salsa.Pcm.Nibbles

/-!
# Copies of 4-bit samples

A copy begins in the half of a byte that the first bit of the area is in, whatever its offset is, and a nibble
stays in its half. So it is right where no offset leads into the other half and both areas are in phase.
-/

namespace Salsa.Pcm.Samples

open CInt Moves

/-! ## Nibbles that are meant and nibbles that are copied -/

/-- Sample `k` at `dst k` is the one that was at `src k`, and no other nibble is changed. -/
structure Moved (dst src : Nat → Nat) (samples : Nat) (v v' : Nat → BitVec 4) : Prop where
  sample : ∀ k < samples, v' (dst k) = v (src k)
  kept : ∀ p, (∀ k < samples, p ≠ dst k) → v' p = v p

/-- Copies in phase are moves. -/
theorem put_loop_run (src_step dst_step samples t s : Nat) (v : Nat → BitVec 4)
    (hphase : ∀ k < samples, (t + k * dst_step) % 2 = (s + k * src_step) % 2) :
    put_loop src_step dst_step samples t s v =
      run ((List.range samples).map fun k => (t + k * dst_step, s + k * src_step)) v := by
  induction samples with
  | zero => rfl
  | succ samples ih =>
    rw [put_loop_concat, ih fun k hk => hphase k (by omega), List.range_succ, List.map_append, List.map_singleton,
      run_concat, put, if_pos (hphase samples (by omega))]

/-- A copy out of phase leaves nothing where it was to write. -/
theorem put_out_of_phase (v : Nat → BitVec 4) (t s : Nat) (h : t % 2 ≠ s % 2) : put v t s t = 0#4 := by
  unfold put clear
  rw [if_neg h, Function.update_of_ne (other_ne t).symm, Function.update_self]

theorem put_in_phase (v : Nat → BitVec 4) (t s : Nat) (h : t % 2 = s % 2) : put v t s = Function.update v t (v s) :=
  if_pos h

/-- Two places that always have the same nibble are one. -/
theorem place_unique (p q : Nat) (h : ∀ v : Nat → BitVec 4, v p = v q) : p = q := by
  by_contra hne
  have hv := h (Function.update (fun _ => 0#4) p 1#4)
  rw [Function.update_self, Function.update_of_ne (Ne.symm hne)] at hv
  exact absurd hv (by decide)

/-- A nibble that is copied over and over onto the same place. -/
theorem put_loop_again (samples t s : Nat) (v : Nat → BitVec 4) (hphase : t % 2 = s % 2) :
    put_loop 0 0 (samples + 1) t s v t = v s := by
  induction samples generalizing v with
  | zero =>
    rw [put_loop, put_in_phase v t s hphase]
    exact Function.update_self ..
  | succ samples ih =>
    change put_loop 0 0 (samples + 1) t s (put v t s) t = v s
    rw [ih, put_in_phase v t s hphase]
    by_cases hst : s = t
    · rw [hst, Function.update_self]
    · rw [Function.update_of_ne hst]

section Copy

variable {src_step dst_step samples t s τ σ : Nat}

/-- In any memory the nibbles that are meant are copied: from `σ` on to `τ` on, where the loop begins at
`s` and `t`. -/
def Right (src_step dst_step samples t s τ σ : Nat) : Prop :=
  ∀ v, Moved (fun k => τ + k * dst_step) (fun k => σ + k * src_step) samples v
    (put_loop src_step dst_step samples t s v)

theorem Right.full (h : Right src_step dst_step samples t s τ σ) (p : Nat) :
    put_loop src_step dst_step samples t s (fun _ => 15#4) p = 15#4 := by
  by_cases hp : ∃ k < samples, p = τ + k * dst_step
  · obtain ⟨k, hk, rfl⟩ := hp
    exact (h fun _ => 15#4).sample k hk
  · exact (h fun _ => 15#4).kept p fun k hk heq => hp ⟨k, hk, heq⟩

/-- One place cannot have two samples. -/
theorem Right.one_place (h : Right src_step 0 samples t s τ σ) (hsamples : 1 < samples) : src_step = 0 := by
  have heq : σ + 0 * src_step = σ + 1 * src_step := by
    refine place_unique _ _ fun v => ?_
    exact ((h v).sample 0 (by omega)).symm.trans ((h v).sample 1 hsamples)
  omega

/-- The last sample is in phase: its place would be empty. -/
theorem Right.last (h : Right src_step dst_step (samples + 1) t s τ σ) :
    (t + samples * dst_step) % 2 = (s + samples * src_step) % 2 := by
  by_contra hphase
  have hfull := h.full (t + samples * dst_step)
  rw [put_loop_concat, put_out_of_phase _ _ _ hphase] at hfull
  exact absurd hfull (by decide)

/-- So is the one before, as the last one is copied to another place. -/
theorem Right.steps (h : Right src_step dst_step (samples + 2) t s τ σ) : dst_step % 2 = src_step % 2 := by
  by_contra hodd
  have hlast := h.last
  have hbefore : (t + samples * dst_step) % 2 ≠ (s + samples * src_step) % 2 := by
    rw [Nat.add_mul, Nat.add_mul, Nat.one_mul, Nat.one_mul] at hlast
    omega
  have hstep : dst_step ≠ 0 := by
    rintro rfl
    obtain rfl := h.one_place (by omega)
    exact hodd rfl
  have hplace : t + samples * dst_step ≠ t + (samples + 1) * dst_step := by
    rw [Nat.add_mul, Nat.one_mul]
    omega
  have hfull := h.full (t + samples * dst_step)
  rw [put_loop_concat, put_in_phase _ _ _ hlast, Function.update_of_ne hplace, put_loop_concat,
    put_out_of_phase _ _ _ hbefore] at hfull
  exact absurd hfull (by decide)

/-- The areas are in phase, where there is more than one sample to see it. -/
structure InPhase (src_step dst_step samples t s : Nat) : Prop where
  first : t % 2 = s % 2
  step : 1 < samples → dst_step % 2 = src_step % 2
  still : 1 < samples → dst_step = 0 → src_step = 0

theorem InPhase.all (h : InPhase src_step dst_step samples t s) (k : Nat) (hk : k < samples) :
    (t + k * dst_step) % 2 = (s + k * src_step) % 2 := by
  have hfirst := h.first
  by_cases hone : 1 < samples
  · rw [Nat.add_mod, Nat.mul_mod, h.step hone, ← Nat.mul_mod, hfirst, ← Nat.add_mod]
  · obtain rfl : k = 0 := by omega
    rw [Nat.zero_mul, Nat.zero_mul]
    exact hfirst

theorem Right.in_phase (h : Right src_step dst_step samples t s τ σ) (hsamples : 0 < samples) :
    InPhase src_step dst_step samples t s := by
  obtain ⟨n, rfl⟩ := Nat.exists_eq_succ_of_ne_zero hsamples.ne'
  have hlast := h.last
  have hsteps (hn : 1 < n + 1) : dst_step % 2 = src_step % 2 := by
    obtain ⟨n, rfl⟩ := Nat.exists_eq_succ_of_ne_zero (by omega : n ≠ 0)
    exact h.steps
  refine ⟨?_, hsteps, fun hn hstep => ?_⟩
  · by_cases hn : 1 < n + 1
    · have hmul : n * dst_step % 2 = n * src_step % 2 := by
        rw [Nat.mul_mod, hsteps hn, ← Nat.mul_mod]
      omega
    · obtain rfl : n = 0 := by omega
      rwa [Nat.zero_mul, Nat.zero_mul] at hlast
  · subst hstep
    exact h.one_place hn

/-- A place that is to be written is written. -/
theorem Right.written (h : Right src_step dst_step samples t s τ σ)
    (hphase : InPhase src_step dst_step samples t s) (k : Nat) (hk : k < samples)
    (hapart : τ + k * dst_step ≠ σ + k * src_step) : ∃ j < samples, τ + k * dst_step = t + j * dst_step := by
  by_contra hnot
  refine hapart (place_unique _ _ fun v => ?_)
  have hsample := (h v).sample k hk
  rw [put_loop_run _ _ _ _ _ _ hphase.all, run_of_notMem] at hsample
  · exact hsample
  · rw [targets_map]
    intro hmem
    obtain ⟨j, hj, heq⟩ := List.mem_map.mp hmem
    exact hnot ⟨j, List.mem_range.mp hj, heq.symm⟩

theorem Right.dst (h : Right src_step dst_step samples t s τ σ) (hsamples : 0 < samples)
    (hphase : InPhase src_step dst_step samples t s)
    (hapart : ∀ k < samples, ∀ l < samples, τ + k * dst_step ≠ σ + l * src_step) : t = τ := by
  obtain ⟨j, hj, hfirst⟩ := h.written hphase 0 hsamples (hapart 0 hsamples 0 hsamples)
  have hn : samples - 1 < samples := by omega
  obtain ⟨i, hi, hlast⟩ := h.written hphase (samples - 1) hn (hapart _ hn _ hn)
  have hle : i * dst_step ≤ (samples - 1) * dst_step := Nat.mul_le_mul_right _ (by omega)
  omega

theorem Right.src (h : Right src_step dst_step samples t s t σ) (hsamples : 0 < samples)
    (hphase : InPhase src_step dst_step samples t s) : s = σ := by
  refine place_unique _ _ fun v => ?_
  obtain ⟨n, rfl⟩ := Nat.exists_eq_succ_of_ne_zero hsamples.ne'
  have hsample := (h v).sample 0 hsamples
  rw [Nat.zero_mul, Nat.zero_mul, Nat.add_zero, Nat.add_zero] at hsample
  rw [← hsample]
  by_cases hstep : 1 < n + 1 ∧ dst_step = 0
  · obtain ⟨hn, rfl⟩ := hstep
    obtain rfl := hphase.still hn rfl
    exact (put_loop_again n t s v hphase.first).symm
  · rw [put_loop_run _ _ _ _ _ _ hphase.all, List.range_succ_eq_map, List.map_cons, run, run_of_notMem]
    · rw [Nat.zero_mul, Nat.zero_mul, Nat.add_zero, Nat.add_zero, Function.update_self]
    · rw [List.map_map, targets, List.map_map]
      intro hmem
      obtain ⟨k, hk, heq⟩ := List.mem_map.mp hmem
      have hk := List.mem_range.mp hk
      have hzero : (k + 1) * dst_step = 0 := Nat.add_left_cancel (heq.trans (Nat.add_zero t).symm)
      rcases Nat.mul_eq_zero.mp hzero with hk | hd
      · exact absurd hk (Nat.succ_ne_zero k)
      · exact hstep ⟨by omega, hd⟩

theorem right_of_in_phase (hphase : InPhase src_step dst_step samples t s)
    (hapart : ∀ k < samples, ∀ l < samples, t + k * dst_step ≠ s + l * src_step) :
    Right src_step dst_step samples t s t s := by
  intro v
  rw [put_loop_run _ _ _ _ _ _ hphase.all]
  constructor
  · intro k hk
    apply run_apart
    · intro move hmove hmem
      obtain ⟨l, hl, rfl⟩ := List.mem_map.mp hmove
      rw [targets_map] at hmem
      obtain ⟨j, hj, heq⟩ := List.mem_map.mp hmem
      exact hapart j (List.mem_range.mp hj) l (List.mem_range.mp hl) heq
    · intro move hmove move' hmove' heq
      obtain ⟨j, hj, rfl⟩ := List.mem_map.mp hmove
      obtain ⟨l, hl, rfl⟩ := List.mem_map.mp hmove'
      have hj := List.mem_range.mp hj
      have hl := List.mem_range.mp hl
      dsimp only at heq ⊢
      by_cases hjl : j = l
      · rw [hjl]
      · have hstep : dst_step = 0 := by
          by_contra hne
          exact hjl (Nat.eq_of_mul_eq_mul_right (Nat.pos_of_ne_zero hne) (Nat.add_left_cancel heq))
        rw [hphase.still (by omega) hstep, Nat.mul_zero, Nat.mul_zero]
    · exact List.mem_map_of_mem (List.mem_range.mpr hk)
  · intro p hp
    rw [run_of_notMem]
    rw [targets_map]
    intro hmem
    obtain ⟨k, hk, heq⟩ := List.mem_map.mp hmem
    exact hp k (List.mem_range.mp hk) heq.symm

theorem right_iff (hsamples : 0 < samples)
    (hapart : ∀ k < samples, ∀ l < samples, τ + k * dst_step ≠ σ + l * src_step) :
    Right src_step dst_step samples t s τ σ ↔ t = τ ∧ s = σ ∧ InPhase src_step dst_step samples t s := by
  constructor
  · intro h
    have hphase := h.in_phase hsamples
    obtain rfl := h.dst hsamples hphase hapart
    exact ⟨rfl, h.src hsamples hphase, hphase⟩
  · rintro ⟨rfl, rfl, hphase⟩
    exact right_of_in_phase hphase hapart

end Copy

/-! ## The areas -/

/-- The nibble of sample `k` behind an offset, where offsets are numbers. -/
def SndPcmChannelArea.nibble (area : SndPcmChannelArea) (offset k : Nat) : Nat :=
  2 * area.addr + area.bit (offset + k) / 4

/-- The nibble that a copy begins with: the byte is the one of the offset, its half the one of the first bit. -/
def SndPcmChannelArea.start (area : SndPcmChannelArea) (offset : BitVec 64) : Nat :=
  2 * snd_pcm_channel_area_addr area offset + area.first.toNat % 8 / 4

/-- Samples that begin with a nibble. -/
structure SndPcmChannelArea.Aligned (area : SndPcmChannelArea) : Prop where
  first : 4 ∣ area.first.toNat
  step : 4 ∣ area.step.toNat

section Area

variable {area : SndPcmChannelArea} (h : area.Aligned)

include h

theorem nibble_add (offset k : Nat) :
    area.nibble offset k = area.nibble offset 0 + k * (area.step.toNat / 4) := by
  obtain ⟨step, hstep⟩ := h.step
  unfold SndPcmChannelArea.nibble
  rw [bit_add, Nat.add_zero, hstep, Nat.mul_left_comm, Nat.mul_div_cancel_left _ (by decide)]
  omega

theorem start_at (offset : BitVec 64) :
    At (snd_pcm_channel_area_addr area offset) (area.first.toNat % 8) (area.start offset) := by
  have hfirst := h.first
  unfold SndPcmChannelArea.start
  constructor <;> omega

theorem start_eq_iff (offset : BitVec 64) (hbit : area.bit offset.toNat < 4294967296) :
    area.start offset = area.nibble offset.toNat 0 ↔ 8 ∣ area.step.toNat * offset.toNat := by
  have haddr := area_addr_add area offset
  rw [(wrapped_eq_zero _ _).mpr hbit, Nat.add_zero] at haddr
  have hfirst := h.first
  have hstep : 4 ∣ area.step.toNat * offset.toNat := Nat.dvd_mul_right_of_dvd h.step _
  unfold SndPcmChannelArea.bit at haddr
  unfold SndPcmChannelArea.start SndPcmChannelArea.nibble SndPcmChannelArea.bit
  rw [haddr, Nat.add_zero]
  omega

end Area

/-- A copy of samples of 4 bits. -/
structure NibbleCopy where
  dst_area : SndPcmChannelArea
  dst_offset : BitVec 64
  src_area : SndPcmChannelArea
  src_offset : BitVec 64
  samples : BitVec 32

namespace NibbleCopy

def dst (x : NibbleCopy) (k : Nat) : Nat := x.dst_area.nibble x.dst_offset.toNat k

def src (x : NibbleCopy) (k : Nat) : Nat := x.src_area.nibble x.src_offset.toNat k

/-- Areas of the format with 4 bits, that are there and do not overlap. -/
structure Given (x : NibbleCopy) (same : Bool) (format : Int) : Prop where
  format : snd_pcm_format_physical_width format = .ok 4
  dst_addr : x.dst_area.addr ≠ 0
  src_addr : x.src_area.addr ≠ 0
  dst_aligned : x.dst_area.Aligned
  src_aligned : x.src_area.Aligned
  dst_bit : ∀ k < x.samples.toNat, x.dst_area.bit (x.dst_offset.toNat + k) < 4294967296
  src_bit : ∀ k < x.samples.toNat, x.src_area.bit (x.src_offset.toNat + k) < 4294967296
  apart : ∀ k < x.samples.toNat, ∀ l < x.samples.toNat, x.dst k ≠ x.src l
  same : same → x.dst_area = x.src_area

/-- Copies of any memory are right. -/
def Copies (x : NibbleCopy) (same : Bool) (format : Int) : Prop :=
  ∀ m, ∃ m', snd_pcm_area_copy m same x.dst_area x.dst_offset x.src_area x.src_offset x.samples format = .ok (0, m') ∧
    Moved x.dst x.src x.samples.toNat (nibble m) (nibble m')

/-- The offsets are even numbers of nibbles, and source and destination stay in phase. -/
structure Even (x : NibbleCopy) : Prop where
  dst_offset : 8 ∣ x.dst_area.step.toNat * x.dst_offset.toNat
  src_offset : 8 ∣ x.src_area.step.toNat * x.src_offset.toNat
  first : x.dst_area.first.toNat % 8 = x.src_area.first.toNat % 8
  step : 1 < x.samples.toNat → x.dst_area.step.toNat % 8 = x.src_area.step.toNat % 8
  still : 1 < x.samples.toNat → x.dst_area.step = 0#32 → x.src_area.step = 0#32

section Given

variable {x : NibbleCopy} {same : Bool} {format : Int} (h : x.Given same format)

include h

theorem Given.copy_4bit (m : Mem) :
    nibble (area_copy_4bit m x.dst_area x.dst_offset x.src_area x.src_offset x.samples).2 =
      put_loop (x.src_area.step.toNat / 4) (x.dst_area.step.toNat / 4) x.samples.toNat (x.dst_area.start x.dst_offset)
        (x.src_area.start x.src_offset) (nibble m) := by
  unfold area_copy_4bit
  simp only [div_eight_toNat, mod_eight_toNat]
  exact nibble_copy_loop _ _ _ _ _ _ _ _ _ m h.src_aligned.step h.dst_aligned.step
    (start_at h.src_aligned x.src_offset) (start_at h.dst_aligned x.dst_offset)

/-- One pointer for both areas is of no account, as the offsets differ. -/
theorem Given.copy_eq (m : Mem) (hsamples : 0 < x.samples.toNat) :
    snd_pcm_area_copy m same x.dst_area x.dst_offset x.src_area x.src_offset x.samples format =
      .ok (area_copy_4bit m x.dst_area x.dst_offset x.src_area x.src_offset x.samples) := by
  have hsame : ¬ (same ∧ x.dst_offset = x.src_offset) := by
    rintro ⟨hsame, hoffset⟩
    apply h.apart 0 hsamples 0 hsamples
    unfold dst src
    rw [h.same hsame, hoffset]
  unfold snd_pcm_area_copy
  rw [if_neg h.dst_addr, if_neg hsame, if_neg h.src_addr, h.format, ok_bind, if_pos (by decide)]
  rfl

theorem Given.copies_none (hsamples : x.samples.toNat = 0) : x.Copies same format := by
  intro m
  have hmoved : Moved x.dst x.src x.samples.toNat (nibble m) (nibble m) := by
    rw [hsamples]
    exact ⟨fun k hk => absurd hk (Nat.not_lt_zero k), fun p _ => rfl⟩
  unfold snd_pcm_area_copy
  rw [if_neg h.dst_addr]
  split
  · exact ⟨m, rfl, hmoved⟩
  · rw [if_neg h.src_addr, h.format, ok_bind, if_pos (by decide)]
    unfold area_copy_4bit
    dsimp only
    rw [hsamples] at hmoved ⊢
    exact ⟨m, rfl, hmoved⟩

theorem Given.copies_iff_right (hsamples : 0 < x.samples.toNat) :
    x.Copies same format ↔
      Right (x.src_area.step.toNat / 4) (x.dst_area.step.toNat / 4) x.samples.toNat (x.dst_area.start x.dst_offset)
        (x.src_area.start x.src_offset) (x.dst 0) (x.src 0) := by
  have hdst : x.dst = fun k => x.dst 0 + k * (x.dst_area.step.toNat / 4) :=
    funext (nibble_add h.dst_aligned x.dst_offset.toNat)
  have hsrc : x.src = fun k => x.src 0 + k * (x.src_area.step.toNat / 4) :=
    funext (nibble_add h.src_aligned x.src_offset.toNat)
  constructor
  · intro hcopies v
    obtain ⟨m', hcopy, hmoved⟩ := hcopies (of_nibbles v)
    rw [h.copy_eq _ hsamples] at hcopy
    have hm' : m' = (area_copy_4bit (of_nibbles v) x.dst_area x.dst_offset x.src_area x.src_offset x.samples).2 :=
      (Prod.mk.inj (Except.ok.inj hcopy)).2.symm
    rw [hm', h.copy_4bit, nibble_of_nibbles, hdst, hsrc] at hmoved
    exact hmoved
  · intro hright m
    refine ⟨_, h.copy_eq m hsamples, ?_⟩
    have hmoved := hright (nibble m)
    rw [← h.copy_4bit, ← hdst, ← hsrc] at hmoved
    exact hmoved

theorem Given.in_phase_iff :
    InPhase (x.src_area.step.toNat / 4) (x.dst_area.step.toNat / 4) x.samples.toNat (x.dst_area.start x.dst_offset)
        (x.src_area.start x.src_offset) ↔
      x.dst_area.first.toNat % 8 = x.src_area.first.toNat % 8 ∧
        (1 < x.samples.toNat → x.dst_area.step.toNat % 8 = x.src_area.step.toNat % 8) ∧
        (1 < x.samples.toNat → x.dst_area.step = 0#32 → x.src_area.step = 0#32) := by
  have hdst := h.dst_aligned
  have hsrc := h.src_aligned
  have hdst_first := (start_at hdst x.dst_offset).bit
  have hsrc_first := (start_at hsrc x.src_offset).bit
  have hdst_step := hdst.step
  have hsrc_step := hsrc.step
  have hfirst : x.dst_area.start x.dst_offset % 2 = x.src_area.start x.src_offset % 2 ↔
      x.dst_area.first.toNat % 8 = x.src_area.first.toNat % 8 := by omega
  have hstep : x.dst_area.step.toNat / 4 % 2 = x.src_area.step.toNat / 4 % 2 ↔
      x.dst_area.step.toNat % 8 = x.src_area.step.toNat % 8 := by omega
  have hzero (v : BitVec 32) (hv : 4 ∣ v.toNat) : v.toNat / 4 = 0 ↔ v = 0#32 := by
    rw [← BitVec.toNat_inj]
    show _ ↔ _ = 0
    omega
  rw [← hfirst, ← hstep, ← hzero _ hdst_step, ← hzero _ hsrc_step]
  exact ⟨fun h => ⟨h.first, h.step, h.still⟩, fun h => ⟨h.1, h.2.1, h.2.2⟩⟩

end Given

/-- Copies are right if and only if there is nothing to copy, or no offset leads to the other half of a byte and
source and destination are in phase. -/
theorem nibbles_copied_iff (x : NibbleCopy) (same : Bool) (format : Int) (h : x.Given same format) :
    x.Copies same format ↔ x.samples = 0#32 ∨ x.Even := by
  by_cases hnone : x.samples.toNat = 0
  · have hzero : x.samples = 0#32 := BitVec.eq_of_toNat_eq hnone
    exact iff_of_true (h.copies_none hnone) (.inl hzero)
  · have hsamples := Nat.pos_of_ne_zero hnone
    have hzero : x.samples ≠ 0#32 := fun hzero => hnone (congrArg BitVec.toNat hzero)
    have hapart : ∀ k < x.samples.toNat, ∀ l < x.samples.toNat,
        x.dst 0 + k * (x.dst_area.step.toNat / 4) ≠ x.src 0 + l * (x.src_area.step.toNat / 4) := by
      intro k hk l hl
      have hkl := h.apart k hk l hl
      unfold dst src at hkl ⊢
      rwa [nibble_add h.dst_aligned, nibble_add h.src_aligned] at hkl
    have hdst := start_eq_iff h.dst_aligned x.dst_offset (h.dst_bit 0 hsamples)
    have hsrc := start_eq_iff h.src_aligned x.src_offset (h.src_bit 0 hsamples)
    rw [h.copies_iff_right hsamples, right_iff hsamples hapart, h.in_phase_iff, or_iff_right hzero]
    constructor
    · rintro ⟨hdst_start, hsrc_start, hfirst, hstep, hstill⟩
      exact ⟨hdst.mp hdst_start, hsrc.mp hsrc_start, hfirst, hstep, hstill⟩
    · intro heven
      exact ⟨hdst.mpr heven.dst_offset, hsrc.mpr heven.src_offset, heven.first, heven.step, heven.still⟩

/-- Six samples of every fourth channel go to one of two channels. -/
def strided : NibbleCopy where
  dst_area := ⟨4096, 4#32, 8#32⟩
  dst_offset := 3#64
  src_area := ⟨8192, 4#32, 16#32⟩
  src_offset := 5#64
  samples := 6#32

theorem strided_given : strided.Given false 22 where
  format := rfl
  dst_addr := by
    show 4096 ≠ 0
    decide
  src_addr := by
    show 8192 ≠ 0
    decide
  dst_aligned := ⟨⟨1, rfl⟩, ⟨2, rfl⟩⟩
  src_aligned := ⟨⟨1, rfl⟩, ⟨4, rfl⟩⟩
  dst_bit := by
    intro k hk
    have hk : k < 6 := hk
    show 4 + 8 * (3 + k) < 4294967296
    omega
  src_bit := by
    intro k hk
    have hk : k < 6 := hk
    show 4 + 16 * (5 + k) < 4294967296
    omega
  apart := by
    intro k hk l hl
    have hk : k < 6 := hk
    have hl : l < 6 := hl
    show 2 * 4096 + (4 + 8 * (3 + k)) / 4 ≠ 2 * 8192 + (4 + 16 * (5 + l)) / 4
    omega
  same := nofun

theorem nibbles_copied_strided : strided.Copies false 22 :=
  (nibbles_copied_iff strided false 22 strided_given).mpr
    (.inr ⟨by decide, by decide, by decide, by decide, by decide⟩)

/-! One sample of packed channels, from and to given offsets. -/

def packed (dst_offset src_offset : BitVec 64) : NibbleCopy where
  dst_area := ⟨4096, 0#32, 4#32⟩
  dst_offset := dst_offset
  src_area := ⟨8192, 0#32, 4#32⟩
  src_offset := src_offset
  samples := 1#32

theorem packed_given (dst_offset src_offset : BitVec 64) (hdst : dst_offset.toNat < 8192)
    (hsrc : src_offset.toNat < 8192) : (packed dst_offset src_offset).Given false 22 where
  format := rfl
  dst_addr := by
    show 4096 ≠ 0
    decide
  src_addr := by
    show 8192 ≠ 0
    decide
  dst_aligned := ⟨⟨0, rfl⟩, ⟨1, rfl⟩⟩
  src_aligned := ⟨⟨0, rfl⟩, ⟨1, rfl⟩⟩
  dst_bit := by
    intro k hk
    have hk : k < 1 := hk
    show 0 + 4 * (dst_offset.toNat + k) < 4294967296
    omega
  src_bit := by
    intro k hk
    have hk : k < 1 := hk
    show 0 + 4 * (src_offset.toNat + k) < 4294967296
    omega
  apart := by
    intro k hk l hl
    have hk : k < 1 := hk
    have hl : l < 1 := hl
    show 2 * 4096 + (0 + 4 * (dst_offset.toNat + k)) / 4 ≠ 2 * 8192 + (0 + 4 * (src_offset.toNat + l)) / 4
    omega
  same := nofun

/-- The second sample is written over the first one. -/
theorem odd_offset_is_cut : ¬ ∀ (x : NibbleCopy) same format, x.Given same format → x.Copies same format := by
  intro h
  have hgiven := packed_given 1#64 0#64 (by decide) (by decide)
  have hright := (hgiven.copies_iff_right (by decide)).mp (h _ _ _ hgiven)
  have hstart := hright.dst (by decide) (hright.in_phase (by decide)) (by decide)
  exact absurd hstart (by decide)

end NibbleCopy

end Salsa.Pcm.Samples
