import Salsa.Pcm.Samples
import Salsa.Lib.Moves
import Mathlib.Data.List.Flatten

/-!
# Copies of whole bytes

Samples of one or more bytes are copied at once where both areas are packed, and one by one where they
are not.
-/

namespace Salsa.Pcm.Samples

open CInt Moves

/-! ## Addresses -/

/-- The bit that an offset leads to. -/
def SndPcmChannelArea.bit (area : SndPcmChannelArea) (offset : Nat) : Nat := area.first.toNat + area.step.toNat * offset

theorem bit_add (area : SndPcmChannelArea) (offset k : Nat) :
    area.bit (offset + k) = area.bit offset + k * area.step.toNat := by
  unfold SndPcmChannelArea.bit
  rw [Nat.mul_add, Nat.mul_comm _ k]
  omega

theorem bitofs_toNat (area : SndPcmChannelArea) (offset : BitVec 64) :
    ((area.first.setWidth 64 + area.step.setWidth 64 * offset).setWidth 32).toNat =
      area.bit offset.toNat % 4294967296 := by
  have hfirst := area.first.isLt
  have hstep := area.step.isLt
  unfold SndPcmChannelArea.bit
  rw [BitVec.toNat_setWidth, BitVec.toNat_add, BitVec.toNat_mul, BitVec.toNat_setWidth, BitVec.toNat_setWidth,
    Nat.mod_eq_of_lt (a := area.first.toNat) (by omega), Nat.mod_eq_of_lt (a := area.step.toNat) (by omega)]
  omega

/-- What the cut of the bit offset takes off an address. -/
def SndPcmChannelArea.wrapped (area : SndPcmChannelArea) (offset : Nat) : Nat :=
  area.bit offset / 4294967296 * 536870912

theorem area_addr_add (area : SndPcmChannelArea) (offset : BitVec 64) :
    snd_pcm_channel_area_addr area offset + area.wrapped offset.toNat = area.addr + area.bit offset.toNat / 8 := by
  unfold snd_pcm_channel_area_addr SndPcmChannelArea.wrapped
  dsimp only
  rw [BitVec.toNat_udiv, bitofs_toNat]
  show _ + _ % 4294967296 / 8 + _ = _
  omega

theorem div_eight_toNat (v : BitVec 32) : (v / 8#32).toNat = v.toNat / 8 := BitVec.toNat_udiv

theorem mod_eight_toNat (v : BitVec 32) : (v % 8#32).toNat = v.toNat % 8 := BitVec.toNat_umod

theorem wrapped_eq_zero (area : SndPcmChannelArea) (offset : Nat) :
    area.wrapped offset = 0 ↔ area.bit offset < 4294967296 := by
  unfold SndPcmChannelArea.wrapped
  omega

/-! ## Calls of memcpy -/

theorem memcpy_run (m m' : Mem) (dst src n : Nat) (h : memcpy m dst src n = .ok m') :
    m' = run ((List.range n).map fun i => (dst + i, src + i)) m := by
  unfold memcpy at h
  split at h
  · cases h
  · rename_i hapart
    cases h
    induction n with
    | zero =>
      funext a
      rw [if_neg (by omega)]
      rfl
    | succ n ih =>
      rw [List.range_succ, List.map_append, List.map_singleton, run_concat, ← ih (by omega)]
      funext a
      by_cases ha : a = dst + n
      · rw [ha, Function.update_self]
        beta_reduce
        rw [if_pos (by omega), if_neg (by omega)]
        congr 1
        omega
      · rw [Function.update_of_ne ha]
        refine if_congr ?_ rfl rfl
        omega

theorem memcpy_ok (m : Mem) (dst src n : Nat) (h : ∀ i < n, ∀ j < n, dst + i ≠ src + j) :
    ∃ m', memcpy m dst src n = .ok m' := by
  unfold memcpy
  rw [if_neg]
  · exact ⟨_, rfl⟩
  · rintro ⟨hdst, hsrc⟩
    by_cases hle : dst ≤ src
    · exact h (src - dst) (by omega) 0 (by omega) (by omega)
    · exact h 0 (by omega) (dst - src) (by omega) (by omega)

/-- The moves of `samples` samples of `width` bytes. -/
def sample_moves (width src_step dst_step samples src dst : Nat) : List (Nat × Nat) :=
  (List.range samples).flatMap fun f =>
    (List.range width).map fun j => (dst + f * dst_step + j, src + f * src_step + j)

theorem mem_sample_moves (width src_step dst_step samples src dst : Nat) (move : Nat × Nat) :
    move ∈ sample_moves width src_step dst_step samples src dst ↔
      ∃ f < samples, ∃ j < width, move = (dst + f * dst_step + j, src + f * src_step + j) := by
  unfold sample_moves
  simp only [List.mem_flatMap, List.mem_map, List.mem_range, eq_comm]

theorem sample_moves_succ (width src_step dst_step samples src dst : Nat) :
    sample_moves width src_step dst_step (samples + 1) src dst =
      ((List.range width).map fun j => (dst + j, src + j)) ++
        sample_moves width src_step dst_step samples (src + src_step) (dst + dst_step) := by
  unfold sample_moves
  rw [List.range_succ_eq_map, List.flatMap_cons, List.flatMap_map]
  have hshift (x s f : Nat) : x + (f + 1) * s = x + s + f * s := by rw [Nat.add_mul, Nat.one_mul]; omega
  simp only [Nat.zero_mul, Nat.add_zero, Nat.succ_eq_add_one, hshift]

theorem copy_loop_run (width src_step dst_step samples src dst : Nat) (m m' : Mem)
    (h : copy_loop width src_step dst_step samples src dst m = .ok m') :
    m' = run (sample_moves width src_step dst_step samples src dst) m := by
  induction samples generalizing src dst m with
  | zero =>
    cases h
    rfl
  | succ samples ih =>
    obtain ⟨m₁, hcopy, hloop⟩ := (bind_eq_ok _ _ _).mp h
    rw [sample_moves_succ, run_append, ← memcpy_run m m₁ dst src width hcopy]
    exact ih _ _ m₁ hloop

theorem copy_loop_ok (width src_step dst_step samples src dst : Nat) (m : Mem)
    (h : ∀ f < samples, ∀ i < width, ∀ j < width, dst + f * dst_step + i ≠ src + f * src_step + j) :
    ∃ m', copy_loop width src_step dst_step samples src dst m = .ok m' := by
  induction samples generalizing src dst m with
  | zero => exact ⟨m, rfl⟩
  | succ samples ih =>
    obtain ⟨m₁, hcopy⟩ := memcpy_ok m dst src width fun i hi j hj => by
      have hfirst := h 0 (by omega) i hi j hj
      rwa [Nat.zero_mul, Nat.zero_mul, Nat.add_zero, Nat.add_zero] at hfirst
    unfold copy_loop
    rw [hcopy, ok_bind]
    apply ih
    intro f hf i hi j hj
    have hnext := h (f + 1) (by omega) i hi j hj
    rw [Nat.add_mul, Nat.add_mul, Nat.one_mul, Nat.one_mul] at hnext
    omega

/-! ## What is demanded -/

/-- A byte of a sample: its channel, its frame and its place in the sample. -/
structure SampleByte where
  channel : Nat
  frame : Nat
  place : Nat
deriving DecidableEq

/-- A destination with its source, for each channel. -/
abbrev AreaPairs := List (SndPcmChannelArea × SndPcmChannelArea)

def AreaPairs.get (areas : AreaPairs) (channel : Nat) : SndPcmChannelArea × SndPcmChannelArea :=
  areas.getD channel (⟨0, 0#32, 0#32⟩, ⟨0, 0#32, 0#32⟩)

/-- The address of a byte of a sample, where offsets are numbers. -/
def SndPcmChannelArea.byte (area : SndPcmChannelArea) (offset frame place : Nat) : Nat :=
  area.addr + area.bit (offset + frame) / 8 + place

/-- A copy of the samples of all channels, with `width` bytes each. -/
structure Transfer where
  areas : AreaPairs
  dst_offset : BitVec 64
  src_offset : BitVec 64
  frames : BitVec 64
  width : Nat

namespace Transfer

variable (x : Transfer)

def dst (i : SampleByte) : Nat := (x.areas.get i.channel).1.byte x.dst_offset.toNat i.frame i.place

def src (i : SampleByte) : Nat := (x.areas.get i.channel).2.byte x.src_offset.toNat i.frame i.place

/-- The bytes in the order in which they are copied. -/
def bytes : List SampleByte :=
  (List.range x.areas.length).flatMap fun c =>
    (List.range x.frames.toNat).flatMap fun f => (List.range x.width).map fun j => ⟨c, f, j⟩

theorem mem_bytes (i : SampleByte) :
    i ∈ x.bytes ↔ i.channel < x.areas.length ∧ i.frame < x.frames.toNat ∧ i.place < x.width := by
  unfold bytes
  simp only [List.mem_flatMap, List.mem_range, List.mem_map]
  constructor
  · rintro ⟨c, hc, f, hf, j, hj, rfl⟩
    exact ⟨hc, hf, hj⟩
  · rintro ⟨hc, hf, hj⟩
    exact ⟨i.channel, hc, i.frame, hf, i.place, hj, rfl⟩

/-- Areas that do not overlap: a byte of a destination belongs to one sample only, and to no source. -/
structure Apart : Prop where
  dst : Set.InjOn x.dst {i | i ∈ x.bytes}
  src : ∀ i ∈ x.bytes, ∀ j ∈ x.bytes, x.dst i ≠ x.src j

/-- Every sample is the one of the source, and nothing else is changed. -/
structure Copied (m m' : Mem) : Prop where
  sample : ∀ i ∈ x.bytes, m' (x.dst i) = m (x.src i)
  kept : ∀ a, (∀ i ∈ x.bytes, a ≠ x.dst i) → m' a = m a

open Classical in
/-- Where the value of a place is to come from. -/
noncomputable def origin (a : Nat) : Nat := if h : ∃ i ∈ x.bytes, x.dst i = a then x.src h.choose else a

variable {x}

theorem origin_dst (hx : x.Apart) (i : SampleByte) (hi : i ∈ x.bytes) : x.origin (x.dst i) = x.src i := by
  have h : ∃ j ∈ x.bytes, x.dst j = x.dst i := ⟨i, hi, rfl⟩
  unfold origin
  rw [dif_pos h, hx.dst h.choose_spec.1 hi h.choose_spec.2]

theorem origin_kept (a : Nat) (h : ∀ i ∈ x.bytes, a ≠ x.dst i) : x.origin a = a := by
  unfold origin
  rw [dif_neg]
  rintro ⟨i, hi, heq⟩
  exact h i hi heq.symm

theorem copied_iff (hx : x.Apart) (m m' : Mem) : x.Copied m m' ↔ m' = m ∘ x.origin := by
  constructor
  · intro h
    funext a
    rw [Function.comp_apply]
    by_cases ha : ∃ i ∈ x.bytes, a = x.dst i
    · obtain ⟨i, hi, rfl⟩ := ha
      rw [origin_dst hx i hi]
      exact h.sample i hi
    · have hkept : ∀ i ∈ x.bytes, a ≠ x.dst i := fun i hi heq => ha ⟨i, hi, heq⟩
      rw [origin_kept a hkept]
      exact h.kept a hkept
  · rintro rfl
    refine ⟨fun i hi => ?_, fun a ha => ?_⟩
    · rw [Function.comp_apply, origin_dst hx i hi]
    · rw [Function.comp_apply, origin_kept a ha]

/-! ## What is copied -/

/-- The number of frames, cut to an unsigned int. -/
def samples (x : Transfer) : Nat := x.frames.toNat % 4294967296

/-- Both areas have nothing between their samples. -/
def Packed (x : Transfer) (pair : SndPcmChannelArea × SndPcmChannelArea) : Prop :=
  pair.2.step.toNat = 8 * x.width ∧ pair.1.step.toNat = 8 * x.width

instance (pair : SndPcmChannelArea × SndPcmChannelArea) : Decidable (x.Packed pair) :=
  inferInstanceAs (Decidable (_ ∧ _))

/-- The moves for a channel. -/
def pair_moves (x : Transfer) (pair : SndPcmChannelArea × SndPcmChannelArea) : List (Nat × Nat) :=
  let dst := snd_pcm_channel_area_addr pair.1 x.dst_offset
  let src := snd_pcm_channel_area_addr pair.2 x.src_offset
  if x.Packed pair then
    (List.range (x.samples * (8 * x.width) % 4294967296 / 8)).map fun i => (dst + i, src + i)
  else sample_moves x.width (pair.2.step.toNat / 8) (pair.1.step.toNat / 8) x.samples src dst

def moves (x : Transfer) : List (Nat × Nat) := x.areas.flatMap x.pair_moves

/-- The call of memcpy, or the loop over the samples, for a channel. -/
def copy_pair (x : Transfer) (pair : SndPcmChannelArea × SndPcmChannelArea) (m : Mem) : C Mem :=
  let dst := snd_pcm_channel_area_addr pair.1 x.dst_offset
  let src := snd_pcm_channel_area_addr pair.2 x.src_offset
  if x.Packed pair then memcpy m dst src (x.samples * (8 * x.width) % 4294967296 / 8)
  else copy_loop x.width (pair.2.step.toNat / 8) (pair.1.step.toNat / 8) x.samples src dst m

end Transfer

theorem physical_width_le (format : Int) (width : Int) (h : snd_pcm_format_physical_width format = .ok width) :
    width ≤ 64 := by
  have htable : ∀ fmt ∈ _snd_pcm_formats, fmt.phys ≤ 64 := by decide
  obtain ⟨fmt, hfmt, hphys⟩ := (bind_eq_ok _ _ _).mp h
  cases hphys
  exact htable fmt (format_data_mem format fmt hfmt)

section Code

variable {x : Transfer} {same : Bool} {format : Int}
  (hformat : snd_pcm_format_physical_width format = .ok (8 * x.width : Nat)) (hwidth : 0 < x.width)
  (hsame : ¬ (same ∧ x.dst_offset = x.src_offset))

include hformat hwidth hsame

/-- The call for one channel, without the cases that copy nothing. -/
theorem area_copy_eq (m : Mem) (pair : SndPcmChannelArea × SndPcmChannelArea)
    (hdst : pair.1.addr ≠ 0) (hsrc : pair.2.addr ≠ 0) :
    snd_pcm_area_copy m same pair.1 x.dst_offset pair.2 x.src_offset (x.frames.setWidth 32) format =
      x.copy_pair pair m >>= fun m => .ok (0, m) := by
  have hle := physical_width_le format _ hformat
  have hint : (BitVec.ofInt 32 ((8 * x.width : Nat) : Int)).toNat = 8 * x.width := by
    rw [BitVec.ofInt_natCast, BitVec.toNat_ofNat]
    omega
  have hstep (area : SndPcmChannelArea) : area.step = BitVec.ofInt 32 ((8 * x.width : Nat) : Int) ↔
      area.step.toNat = 8 * x.width := by
    constructor
    · intro h
      rw [h, hint]
    · exact fun h => BitVec.eq_of_toNat_eq (h.trans hint.symm)
  have hsize : (x.frames.setWidth 32 * BitVec.ofInt 32 ((8 * x.width : Nat) : Int) / 8#32).toNat =
      x.samples * (8 * x.width) % 4294967296 / 8 := by
    rw [BitVec.toNat_udiv, BitVec.toNat_mul, hint, BitVec.toNat_setWidth]
    rfl
  have hbytes : (((8 * x.width : Nat) : Int) / 8).toNat = x.width := by omega
  have hsamples : (x.frames.setWidth 32).toNat = x.samples := BitVec.toNat_setWidth 32 x.frames
  unfold snd_pcm_area_copy
  rw [if_neg hdst, if_neg hsame, if_neg hsrc, hformat, ok_bind, if_neg (by omega)]
  dsimp only
  simp only [hstep, hsize, hbytes, div_eight_toNat, hsamples]
  unfold Transfer.copy_pair
  by_cases hpacked : x.Packed pair
  · rw [if_pos hpacked]
    exact if_pos hpacked
  · rw [if_neg hpacked]
    exact if_neg hpacked

theorem area_copy_run (m m' : Mem) (r : Int) (pair : SndPcmChannelArea × SndPcmChannelArea) (hdst : pair.1.addr ≠ 0)
    (hsrc : pair.2.addr ≠ 0)
    (h : snd_pcm_area_copy m same pair.1 x.dst_offset pair.2 x.src_offset (x.frames.setWidth 32) format =
      .ok (r, m')) : m' = run (x.pair_moves pair) m := by
  rw [area_copy_eq hformat hwidth hsame m pair hdst hsrc] at h
  obtain ⟨m₁, hcopy, hreturn⟩ := (bind_eq_ok _ _ _).mp h
  cases hreturn
  unfold Transfer.copy_pair at hcopy
  unfold Transfer.pair_moves
  dsimp only at hcopy ⊢
  split at hcopy
  · rename_i hpacked
    rw [if_pos hpacked]
    exact memcpy_run _ _ _ _ _ hcopy
  · rename_i hpacked
    rw [if_neg hpacked]
    exact copy_loop_run _ _ _ _ _ _ _ _ hcopy

/-- No call of memcpy overlaps where nothing is read that is written. -/
theorem area_copy_ok (m : Mem) (pair : SndPcmChannelArea × SndPcmChannelArea) (hdst : pair.1.addr ≠ 0)
    (hsrc : pair.2.addr ≠ 0) (hapart : ∀ move ∈ x.pair_moves pair, ∀ move' ∈ x.pair_moves pair, move.1 ≠ move'.2) :
    ∃ m', snd_pcm_area_copy m same pair.1 x.dst_offset pair.2 x.src_offset (x.frames.setWidth 32) format =
      .ok (0, m') := by
  rw [area_copy_eq hformat hwidth hsame m pair hdst hsrc]
  unfold Transfer.pair_moves at hapart
  unfold Transfer.copy_pair
  dsimp only at hapart ⊢
  split at hapart
  · rename_i hpacked
    obtain ⟨m', hcopy⟩ := memcpy_ok m (snd_pcm_channel_area_addr pair.1 x.dst_offset)
      (snd_pcm_channel_area_addr pair.2 x.src_offset) (x.samples * (8 * x.width) % 4294967296 / 8) fun i hi j hj =>
        hapart _ (List.mem_map_of_mem (List.mem_range.mpr hi)) _ (List.mem_map_of_mem (List.mem_range.mpr hj))
    rw [if_pos hpacked, hcopy]
    exact ⟨m', rfl⟩
  · rename_i hpacked
    obtain ⟨m', hcopy⟩ := copy_loop_ok x.width (pair.2.step.toNat / 8) (pair.1.step.toNat / 8) x.samples
      (snd_pcm_channel_area_addr pair.2 x.src_offset) (snd_pcm_channel_area_addr pair.1 x.dst_offset) m
      fun f hf i hi j hj =>
        hapart _ ((mem_sample_moves ..).mpr ⟨f, hf, i, hi, rfl⟩) _ ((mem_sample_moves ..).mpr ⟨f, hf, j, hj, rfl⟩)
    rw [if_neg hpacked, hcopy]
    exact ⟨m', rfl⟩

theorem areas_copy_run (areas : AreaPairs) (m m' : Mem) (haddr : ∀ pair ∈ areas, pair.1.addr ≠ 0 ∧ pair.2.addr ≠ 0)
    (h : areas_copy_loop same x.dst_offset x.src_offset x.frames format areas m = .ok m') :
    m' = run (areas.flatMap x.pair_moves) m := by
  induction areas generalizing m with
  | nil =>
    cases h
    rfl
  | cons pair areas ih =>
    obtain ⟨⟨r, m₁⟩, hcopy, hloop⟩ := (bind_eq_ok _ _ _).mp h
    obtain ⟨hdst, hsrc⟩ := haddr pair List.mem_cons_self
    rw [List.flatMap_cons, run_append, ← area_copy_run hformat hwidth hsame m m₁ r pair hdst hsrc hcopy]
    exact ih m₁ (fun pair hpair => haddr pair (List.mem_cons_of_mem _ hpair)) hloop

theorem areas_copy_ok (areas : AreaPairs) (m : Mem) (haddr : ∀ pair ∈ areas, pair.1.addr ≠ 0 ∧ pair.2.addr ≠ 0)
    (hapart : ∀ pair ∈ areas, ∀ move ∈ x.pair_moves pair, ∀ move' ∈ x.pair_moves pair, move.1 ≠ move'.2) :
    ∃ m', areas_copy_loop same x.dst_offset x.src_offset x.frames format areas m = .ok m' := by
  induction areas generalizing m with
  | nil => exact ⟨m, rfl⟩
  | cons pair areas ih =>
    obtain ⟨hdst, hsrc⟩ := haddr pair List.mem_cons_self
    obtain ⟨m₁, hcopy⟩ := area_copy_ok hformat hwidth hsame m pair hdst hsrc (hapart pair List.mem_cons_self)
    unfold areas_copy_loop
    rw [hcopy, ok_bind]
    exact ih m₁ (fun pair hpair => haddr pair (List.mem_cons_of_mem _ hpair))
      fun pair hpair => hapart pair (List.mem_cons_of_mem _ hpair)

end Code

end Salsa.Pcm.Samples
