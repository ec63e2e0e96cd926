import Salsa.Pcm.Copy
import Mathlib.Data.List.GetD
import Mathlib.Data.List.Nodup

/-!
# Copies beyond 32 bits

Bit offsets, sizes and numbers of frames are cut to 32 bits. What is copied is right as long as nothing
is cut off.
-/

namespace Salsa.Pcm.Samples

open CInt Moves

/-- By channels, by frames and by places. -/
def SampleByte.Before (i k : SampleByte) : Prop :=
  i.channel < k.channel ∨ i.channel = k.channel ∧ (i.frame < k.frame ∨ i.frame = k.frame ∧ i.place < k.place)

namespace Transfer

variable {x : Transfer}

/-- First bits and steps are multiples of 8. -/
def Aligned (x : Transfer) : Prop :=
  ∀ pair ∈ x.areas, 8 ∣ pair.1.first.toNat ∧ 8 ∣ pair.1.step.toNat ∧ 8 ∣ pair.2.first.toNat ∧ 8 ∣ pair.2.step.toNat

/-- The bytes that the cut offset of a source leads to are ones that earlier channels have copied from the right
place. -/
def Relayed (x : Transfer) (c : Nat) : Prop :=
  ∀ i ∈ x.bytes, i.channel = c →
    ∃ k ∈ x.bytes, k.channel < c ∧ x.dst k + (x.areas.get c).2.wrapped x.src_offset.toNat = x.src i ∧ x.src k = x.src i

/-- Nothing is cut off that matters. -/
structure Fits (x : Transfer) : Prop where
  frames : x.frames.toNat < 4294967296
  packed : ∀ pair ∈ x.areas, x.Packed pair → x.frames.toNat * (8 * x.width) < 4294967296
  dst : ∀ pair ∈ x.areas, pair.1.bit x.dst_offset.toNat < 4294967296
  src : ∀ c < x.areas.length, (x.areas.get c).2.bit x.src_offset.toNat < 4294967296 ∨ x.Relayed c

theorem get_mem (areas : AreaPairs) (c : Nat) (hc : c < areas.length) : areas.get c ∈ areas := by
  unfold AreaPairs.get
  rw [List.getD_eq_getElem _ _ hc]
  exact List.getElem_mem hc

theorem exists_get (areas : AreaPairs) (pair : SndPcmChannelArea × SndPcmChannelArea) (h : pair ∈ areas) :
    ∃ c < areas.length, areas.get c = pair := by
  obtain ⟨c, hc, rfl⟩ := List.getElem_of_mem h
  exact ⟨c, hc, List.getD_eq_getElem _ _ hc⟩

theorem byte_eq (area : SndPcmChannelArea) (offset : BitVec 64) (frame place : Nat) (h : 8 ∣ area.step.toNat) :
    area.byte offset.toNat frame place =
      snd_pcm_channel_area_addr area offset + frame * (area.step.toNat / 8) + place + area.wrapped offset.toNat := by
  have haddr := area_addr_add area offset
  obtain ⟨step, hstep⟩ := h
  have hbit : area.bit (offset.toNat + frame) = area.bit offset.toNat + 8 * (frame * step) := by
    rw [bit_add, hstep, Nat.mul_left_comm]
  unfold SndPcmChannelArea.byte
  rw [hbit, hstep, Nat.mul_div_cancel_left _ (by decide)]
  omega

/-- The byte that is read for a byte of a sample. -/
def read (x : Transfer) (i : SampleByte) : Nat :=
  snd_pcm_channel_area_addr (x.areas.get i.channel).2 x.src_offset +
    i.frame * ((x.areas.get i.channel).2.step.toNat / 8) + i.place

theorem read_add (hx : x.Aligned) (i : SampleByte) (hi : i ∈ x.bytes) :
    x.read i + (x.areas.get i.channel).2.wrapped x.src_offset.toNat = x.src i := by
  have hpair := hx _ (get_mem x.areas i.channel ((x.mem_bytes i).mp hi).1)
  exact (byte_eq _ _ _ _ hpair.2.2.2).symm

/-! ## What is written -/

/-- The byte is among those that the code gets to. -/
def Performed (x : Transfer) (i : SampleByte) : Prop :=
  if x.Packed (x.areas.get i.channel) then
    i.frame * x.width + i.place < x.samples * (8 * x.width) % 4294967296 / 8
  else i.frame < x.samples

theorem samples_le : x.samples ≤ x.frames.toNat := Nat.mod_le _ _

/-- What is written belongs to a sample, but for what was cut off its address. -/
theorem target_of_moves (hwidth : 0 < x.width) (hx : x.Aligned) (t : Nat) (ht : t ∈ targets x.moves) :
    ∃ i ∈ x.bytes, x.Performed i ∧ x.dst i = t + (x.areas.get i.channel).1.wrapped x.dst_offset.toNat := by
  obtain ⟨move, hmove, rfl⟩ := List.mem_map.mp ht
  obtain ⟨pair, hpair, hmove⟩ := List.mem_flatMap.mp hmove
  obtain ⟨c, hc, rfl⟩ := exists_get x.areas pair hpair
  have hstep := (hx _ hpair).2.1
  have hsamples := x.samples_le
  unfold pair_moves at hmove
  dsimp only at hmove
  split at hmove
  · rename_i hpacked
    obtain ⟨k, hk, rfl⟩ := List.mem_map.mp hmove
    rw [List.mem_range] at hk
    have hdiv : k / x.width * x.width + k % x.width = k := Nat.div_add_mod' k x.width
    have hle : x.samples * (8 * x.width) % 4294967296 / 8 ≤ x.samples * x.width :=
      calc x.samples * (8 * x.width) % 4294967296 / 8 ≤ x.samples * (8 * x.width) / 8 :=
            Nat.div_le_div_right (Nat.mod_le _ _)
        _ = x.samples * x.width := by rw [Nat.mul_left_comm, Nat.mul_div_cancel_left _ (by decide)]
    have hframe : k / x.width < x.samples := (Nat.div_lt_iff_lt_mul hwidth).mpr (hk.trans_le hle)
    refine ⟨⟨c, k / x.width, k % x.width⟩, (x.mem_bytes _).mpr ⟨hc, by dsimp only; omega, Nat.mod_lt _ hwidth⟩, ?_, ?_⟩
    · unfold Performed
      rw [if_pos hpacked]
      dsimp only
      rwa [hdiv]
    · unfold dst
      dsimp only
      rw [byte_eq _ _ _ _ hstep, hpacked.2, Nat.mul_div_cancel_left _ (by decide)]
      omega
  · rename_i hpacked
    obtain ⟨f, hf, j, hj, rfl⟩ := (mem_sample_moves ..).mp hmove
    refine ⟨⟨c, f, j⟩, (x.mem_bytes _).mpr ⟨hc, by dsimp only; omega, hj⟩, ?_, byte_eq _ _ _ _ hstep⟩
    unfold Performed
    rwa [if_neg hpacked]

/-- The samples of a packed area are one block. -/
theorem sample_moves_packed (width samples src dst : Nat) :
    sample_moves width width width samples src dst =
      (List.range (samples * width)).map fun i => (dst + i, src + i) := by
  induction samples generalizing src dst with
  | zero => rw [Nat.zero_mul]; rfl
  | succ samples ih =>
    rw [sample_moves_succ, ih, Nat.add_mul, Nat.one_mul, Nat.add_comm (samples * width), List.range_add,
      List.map_append, List.map_map]
    congr 1
    refine List.map_congr_left fun i _ => ?_
    simp only [Function.comp_apply, Nat.add_assoc]

section Moves

variable (hx : x.Aligned) (hframes : x.frames.toNat < 4294967296)
  (hpacked : ∀ pair ∈ x.areas, x.Packed pair → x.frames.toNat * (8 * x.width) < 4294967296)
  (hdst : ∀ pair ∈ x.areas, pair.1.bit x.dst_offset.toNat < 4294967296)

include hx hframes hpacked hdst

/-- Where nothing is cut, every byte of a sample of the channel is written, in their order. -/
theorem pair_moves_eq (c : Nat) (hc : c < x.areas.length) : x.pair_moves (x.areas.get c) =
    (List.range x.frames.toNat).flatMap fun f => (List.range x.width).map fun j =>
      (x.dst ⟨c, f, j⟩, x.read ⟨c, f, j⟩) := by
  have hsamples : x.samples = x.frames.toNat := Nat.mod_eq_of_lt hframes
  have hmem := get_mem x.areas c hc
  have hdst_eq (f j : Nat) : x.dst ⟨c, f, j⟩ = snd_pcm_channel_area_addr (x.areas.get c).1 x.dst_offset +
      f * ((x.areas.get c).1.step.toNat / 8) + j := by
    unfold dst
    dsimp only
    rw [byte_eq _ _ _ _ (hx _ hmem).2.1, (wrapped_eq_zero _ _).mpr (hdst _ hmem), Nat.add_zero]
  simp only [hdst_eq]
  unfold pair_moves
  dsimp only
  by_cases hp : x.Packed (x.areas.get c)
  · have hblock : x.samples * (8 * x.width) % 4294967296 / 8 = x.frames.toNat * x.width := by
      rw [hsamples, Nat.mod_eq_of_lt (hpacked _ hmem hp), Nat.mul_left_comm, Nat.mul_div_cancel_left _ (by decide)]
    rw [if_pos hp, hblock, ← sample_moves_packed, sample_moves]
    unfold read
    dsimp only
    rw [hp.1, hp.2, Nat.mul_div_cancel_left _ (by decide)]
  · rw [if_neg hp, hsamples]
    rfl

theorem moves_eq : x.moves = x.bytes.map fun i => (x.dst i, x.read i) := by
  have hareas : x.areas = (List.range x.areas.length).map x.areas.get := by
    apply List.ext_getElem
    · simp
    · intro c hc _
      rw [List.getElem_map, List.getElem_range]
      exact (List.getD_eq_getElem _ _ hc).symm
  unfold moves
  rw [hareas, List.flatMap_map]
  unfold bytes
  simp only [List.map_flatMap, List.map_map]
  exact List.flatMap_congr fun c hc => pair_moves_eq hx hframes hpacked hdst c (List.mem_range.mp hc)

theorem move_of_channel (c : Nat) (hc : c < x.areas.length) (move : Nat × Nat)
    (hmove : move ∈ x.pair_moves (x.areas.get c)) :
    ∃ i ∈ x.bytes, i.channel = c ∧ move = (x.dst i, x.read i) := by
  rw [pair_moves_eq hx hframes hpacked hdst c hc] at hmove
  obtain ⟨f, hf, hmove⟩ := List.mem_flatMap.mp hmove
  obtain ⟨j, hj, rfl⟩ := List.mem_map.mp hmove
  exact ⟨⟨c, f, j⟩, (x.mem_bytes _).mpr ⟨hc, List.mem_range.mp hf, List.mem_range.mp hj⟩, rfl, rfl⟩

end Moves

/-! ## Sources -/

theorem bytes_sorted : x.bytes.Pairwise SampleByte.Before := by
  unfold bytes
  rw [List.pairwise_flatMap]
  constructor
  · intro c _
    rw [List.pairwise_flatMap]
    constructor
    · intro f _
      rw [List.pairwise_map]
      exact List.pairwise_lt_range.imp fun hlt => .inr ⟨rfl, .inr ⟨rfl, hlt⟩⟩
    · refine List.pairwise_lt_range.imp fun hlt i hi k hk => ?_
      obtain ⟨j, -, rfl⟩ := List.mem_map.mp hi
      obtain ⟨j', -, rfl⟩ := List.mem_map.mp hk
      exact .inr ⟨rfl, .inl hlt⟩
  · refine List.pairwise_lt_range.imp fun hlt i hi k hk => .inl ?_
    simp only [List.mem_flatMap, List.mem_map] at hi hk
    obtain ⟨f, -, j, -, rfl⟩ := hi
    obtain ⟨f', -, j', -, rfl⟩ := hk
    exact hlt

theorem bytes_nodup : x.bytes.Nodup := by
  refine bytes_sorted.imp fun {i k} h heq => ?_
  subst heq
  unfold SampleByte.Before at h
  omega

theorem channel_le_of_split (i : SampleByte) (before after : List SampleByte) (h : x.bytes = before ++ i :: after) :
    (∀ k ∈ before, k.channel ≤ i.channel) ∧ ∀ k ∈ after, i.channel ≤ k.channel := by
  have hle {i k : SampleByte} (h : i.Before k) : i.channel ≤ k.channel := by
    unfold SampleByte.Before at h
    omega
  have hsorted := x.bytes_sorted
  rw [h, List.pairwise_append] at hsorted
  exact ⟨fun k hk => hle (hsorted.2.2 k hk i List.mem_cons_self),
    fun k hk => hle ((List.pairwise_cons.mp hsorted.2.1).1 k hk)⟩

theorem targets_eq (hmoves : x.moves = x.bytes.map fun i => (x.dst i, x.read i)) :
    targets x.moves = x.bytes.map x.dst := by
  rw [hmoves, targets_map]

theorem targets_nodup (hapart : x.Apart) (hmoves : x.moves = x.bytes.map fun i => (x.dst i, x.read i)) :
    (targets x.moves).Nodup := by
  rw [targets_eq hmoves]
  exact x.bytes_nodup.map_on fun i hi k hk h => hapart.dst hi hk h

/-- The move for a byte, behind the ones for the bytes before. -/
theorem move_of_mem (hmoves : x.moves = x.bytes.map fun i => (x.dst i, x.read i)) (i : SampleByte) (hi : i ∈ x.bytes) :
    ∃ before after, x.bytes = before ++ i :: after ∧
      x.moves = (before.map fun i => (x.dst i, x.read i)) ++
        (x.dst i, x.read i) :: after.map fun i => (x.dst i, x.read i) := by
  obtain ⟨before, after, hsplit⟩ := List.append_of_mem hi
  exact ⟨before, after, hsplit, by rw [hmoves, hsplit, List.map_append, List.map_cons]⟩

/-- Where a byte comes from if the run as a whole is right. -/
theorem read_of_run (hapart : x.Apart) (hmoves : x.moves = x.bytes.map fun i => (x.dst i, x.read i))
    (hrun : run x.moves id = x.origin) (i : SampleByte) (hi : i ∈ x.bytes) :
    x.read i = x.src i ∨ ∃ before after, x.bytes = before ++ i :: after ∧ ∃ k ∈ before, x.dst k = x.read i ∧
      x.src k = x.src i := by
  obtain ⟨before, after, hsplit, hmove⟩ := move_of_mem hmoves i hi
  have horigin := ((run_id_iff x.moves x.origin (targets_nodup hapart hmoves)).mp hrun).1 _ _ _ _ hmove
  rw [origin_dst hapart i hi] at horigin
  split at horigin
  · rename_i hread
    rw [targets_map] at hread
    obtain ⟨k, hk, hdst⟩ := List.mem_map.mp hread
    have hmem : k ∈ x.bytes := by
      rw [hsplit]
      exact List.mem_append_left _ hk
    rw [← hdst, origin_dst hapart k hmem] at horigin
    exact .inr ⟨before, after, hsplit, k, hk, hdst, horigin.symm⟩
  · exact .inl horigin.symm

/-- A source whose offset is cut is still right if earlier channels have left its bytes there. -/
theorem relayed_of_run (hx : x.Aligned) (hapart : x.Apart)
    (hmoves : x.moves = x.bytes.map fun i => (x.dst i, x.read i)) (hrun : run x.moves id = x.origin) (c : Nat)
    (hcut : (x.areas.get c).2.wrapped x.src_offset.toNat ≠ 0) : x.Relayed c := by
  rintro i hi rfl
  have hread := read_add hx i hi
  rcases read_of_run hapart hmoves hrun i hi with hsrc | ⟨before, after, hsplit, k, hk, hdst, hsrc⟩
  · omega
  · have hmem : k ∈ x.bytes := by
      rw [hsplit]
      exact List.mem_append_left _ hk
    refine ⟨k, hmem, ?_, by rw [hdst]; exact hread, hsrc⟩
    refine lt_of_le_of_ne ((channel_le_of_split i before after hsplit).1 k hk) fun hsame => ?_
    -- a byte of the same channel would have been copied onto itself
    have hread' := read_add hx k hmem
    rw [hsame, hsrc, ← hread] at hread'
    have hself : x.dst k = x.read k := hdst.trans (by omega)
    rcases read_of_run hapart hmoves hrun k hmem with hsrc' | ⟨before', after', hsplit', l, hl, hdst', -⟩
    · exact hapart.src k hmem k hmem (hself.trans hsrc')
    · have hlmem : l ∈ x.bytes := by
        rw [hsplit']
        exact List.mem_append_left _ hl
      obtain rfl := hapart.dst hlmem hmem (hdst'.trans hself.symm)
      have hnodup := x.bytes_nodup
      rw [hsplit'] at hnodup
      exact (List.nodup_append.mp hnodup).2.2 l hl l List.mem_cons_self rfl

theorem run_of_fits (hx : x.Aligned) (hapart : x.Apart) (hfits : x.Fits) : run x.moves id = x.origin := by
  have hmoves := moves_eq hx hfits.frames hfits.packed hfits.dst
  rw [run_id_iff x.moves x.origin (targets_nodup hapart hmoves)]
  constructor
  · intro p t s q hsplit
    rw [hmoves] at hsplit
    obtain ⟨before, rest, hbytes, rfl, hrest⟩ := List.map_eq_append_iff.mp hsplit
    obtain ⟨i, after, rfl, hmove, rfl⟩ := List.map_eq_cons_iff.mp hrest
    obtain ⟨rfl, rfl⟩ := Prod.mk.inj hmove
    have hi : i ∈ x.bytes := by
      rw [hbytes]
      exact List.mem_append_right _ List.mem_cons_self
    have hread := read_add hx i hi
    have hchannel := ((x.mem_bytes i).mp hi).1
    rw [origin_dst hapart i hi, targets_map]
    rcases hfits.src i.channel hchannel with hbit | hrelayed
    · rw [(wrapped_eq_zero _ _).mpr hbit, Nat.add_zero] at hread
      rw [hread, if_neg]
      intro hmem
      obtain ⟨k, hk, hdst⟩ := List.mem_map.mp hmem
      exact hapart.src k (hbytes ▸ List.mem_append_left _ hk) i hi hdst
    · obtain ⟨k, hk, hlt, hdst, hsrc⟩ := hrelayed i hi rfl
      have hkread : x.dst k = x.read i := by omega
      have hbefore : k ∈ before := by
        rw [hbytes] at hk
        refine (List.mem_append.mp hk).resolve_right fun hafter => ?_
        rcases List.mem_cons.mp hafter with rfl | hafter
        · exact lt_irrefl _ hlt
        · exact absurd hlt (not_lt.mpr ((channel_le_of_split i before after hbytes).2 k hafter))
      rw [← hkread, if_pos (List.mem_map_of_mem hbefore), origin_dst hapart k hk, hsrc]
  · intro a ha
    rw [targets_eq hmoves] at ha
    exact origin_kept a fun i hi heq => ha (heq ▸ List.mem_map_of_mem hi)

/-! ## The whole copy -/

/-- Copies of any memory are right. -/
def Copies (x : Transfer) (same : Bool) (format : Int) : Prop :=
  ∀ m, ∃ r m', snd_pcm_areas_copy m same x.areas x.dst_offset x.src_offset x.frames format = .ok (r, m') ∧
    x.Copied m m'

/-- Areas of a format with whole bytes, that are there and do not overlap. -/
structure Given (x : Transfer) (same : Bool) (format : Int) : Prop where
  format : snd_pcm_format_physical_width format = .ok (8 * x.width : Nat)
  width : 0 < x.width
  channels : x.areas ≠ []
  frames : x.frames ≠ 0#64
  addr : ∀ pair ∈ x.areas, pair.1.addr ≠ 0 ∧ pair.2.addr ≠ 0
  aligned : x.Aligned
  apart : x.Apart
  same : same → ∀ pair ∈ x.areas, pair.1 = pair.2

section Given

variable {same : Bool} {format : Int} (h : x.Given same format)

include h

/-- One pointer for both areas is of no account, as the offsets differ. -/
theorem Given.not_same : ¬ (same ∧ x.dst_offset = x.src_offset) := by
  rintro ⟨hsame, hoffset⟩
  have hframes : 0 < x.frames.toNat := by
    have hne := h.frames
    rw [ne_eq, ← BitVec.toNat_inj] at hne
    exact Nat.pos_of_ne_zero hne
  have hmem : (⟨0, 0, 0⟩ : SampleByte) ∈ x.bytes :=
    (x.mem_bytes _).mpr ⟨List.length_pos_iff.mpr h.channels, hframes, h.width⟩
  apply h.apart.src _ hmem _ hmem
  unfold dst src
  rw [h.same hsame _ (get_mem _ _ (List.length_pos_iff.mpr h.channels)), hoffset]

theorem Given.copy_eq (m : Mem) :
    snd_pcm_areas_copy m same x.areas x.dst_offset x.src_offset x.frames format =
      areas_copy_loop same x.dst_offset x.src_offset x.frames format x.areas m >>= fun m => .ok (0, m) := by
  unfold snd_pcm_areas_copy
  rw [if_neg h.channels, if_neg h.frames]
  rfl

theorem Given.run_of_copies (hcopies : x.Copies same format) : run x.moves id = x.origin := by
  have : Nontrivial (BitVec 8) := ⟨0#8, 1#8, by decide⟩
  rw [← @run_comp_iff Nat (BitVec 8)]
  intro m
  obtain ⟨r, m', hcopy, hcopied⟩ := hcopies m
  rw [h.copy_eq] at hcopy
  obtain ⟨m₁, hloop, hreturn⟩ := (bind_eq_ok _ _ _).mp hcopy
  cases hreturn
  rw [copied_iff h.apart] at hcopied
  rw [← hcopied]
  exact (areas_copy_run h.format h.width h.not_same x.areas m m' h.addr hloop).symm

/-- Every byte is written where it was meant to be. -/
theorem Given.performed (hrun : run x.moves id = x.origin) (i : SampleByte) (hi : i ∈ x.bytes) :
    x.Performed i ∧ (x.areas.get i.channel).1.wrapped x.dst_offset.toNat = 0 := by
  refine unshifted x.bytes.toFinset x.dst (fun i => (x.areas.get i.channel).1.wrapped x.dst_offset.toNat) x.Performed
    ?_ ?_ i (List.mem_toFinset.mpr hi)
  · intro i hi k hk
    exact h.apart.dst (List.mem_toFinset.mp hi) (List.mem_toFinset.mp hk)
  · intro i hi
    have hi := List.mem_toFinset.mp hi
    have hwritten : x.dst i ∈ targets x.moves := by
      by_contra hnot
      have hkept := run_of_notMem x.moves id (x.dst i) hnot
      rw [hrun, origin_dst h.apart i hi] at hkept
      exact h.apart.src i hi i hi hkept.symm
    obtain ⟨k, hk, hperformed, hdst⟩ := target_of_moves h.width h.aligned _ hwritten
    exact ⟨k, List.mem_toFinset.mpr hk, hperformed, hdst⟩

theorem Given.fits_of_run (hrun : run x.moves id = x.origin) : x.Fits := by
  have hperformed := h.performed hrun
  have hwidth := h.width
  have hpos : 0 < x.frames.toNat := by
    have hne := h.frames
    rw [ne_eq, ← BitVec.toNat_inj] at hne
    exact Nat.pos_of_ne_zero hne
  have hlast (c : Nat) (hc : c < x.areas.length) := hperformed ⟨c, x.frames.toNat - 1, x.width - 1⟩
    ((x.mem_bytes _).mpr ⟨hc, by dsimp only; omega, by dsimp only; omega⟩)
  have hpacked : ∀ pair ∈ x.areas, x.Packed pair → x.frames.toNat * (8 * x.width) < 4294967296 := by
    intro pair hpair hpacked
    obtain ⟨c, hc, rfl⟩ := exists_get x.areas pair hpair
    have hlast := (hlast c hc).1
    unfold Performed at hlast
    dsimp only at hlast
    rw [if_pos hpacked, Nat.sub_mul, Nat.one_mul] at hlast
    have hle := Nat.le_mul_of_pos_left x.width hpos
    rw [Nat.mul_left_comm]
    omega
  have hframes : x.frames.toNat < 4294967296 := by
    have hc := List.length_pos_iff.mpr h.channels
    have hlast := (hlast 0 hc).1
    unfold Performed at hlast
    dsimp only at hlast
    split at hlast
    · rename_i hp
      have hsize := hpacked _ (get_mem _ 0 hc) hp
      exact (Nat.le_mul_of_pos_right _ (by omega)).trans_lt hsize
    · unfold samples at hlast
      omega
  have hdst : ∀ pair ∈ x.areas, pair.1.bit x.dst_offset.toNat < 4294967296 := by
    intro pair hpair
    obtain ⟨c, hc, rfl⟩ := exists_get x.areas pair hpair
    exact (wrapped_eq_zero _ _).mp (hlast c hc).2
  have hmoves := moves_eq h.aligned hframes hpacked hdst
  refine ⟨hframes, hpacked, hdst, fun c hc => ?_⟩
  by_cases hbit : (x.areas.get c).2.bit x.src_offset.toNat < 4294967296
  · exact .inl hbit
  · exact .inr (relayed_of_run h.aligned h.apart hmoves hrun c (mt (wrapped_eq_zero _ _).mp hbit))

/-- No byte of a destination is read in the same channel. -/
theorem Given.dst_ne_read (hfits : x.Fits) (i k : SampleByte) (hi : i ∈ x.bytes) (hk : k ∈ x.bytes)
    (hchannel : i.channel = k.channel) : x.dst i ≠ x.read k := by
  intro heq
  have hread := read_add h.aligned k hk
  rcases hfits.src k.channel ((x.mem_bytes k).mp hk).1 with hbit | hrelayed
  · rw [(wrapped_eq_zero _ _).mpr hbit, Nat.add_zero] at hread
    exact h.apart.src i hi k hk (heq.trans hread)
  · obtain ⟨l, hl, hlt, hdst, -⟩ := hrelayed k hk rfl
    obtain rfl := h.apart.dst hi hl (by omega)
    omega

theorem Given.copies_of_fits (hfits : x.Fits) : x.Copies same format := by
  have hrun := run_of_fits h.aligned h.apart hfits
  intro m
  have hapart : ∀ pair ∈ x.areas, ∀ move ∈ x.pair_moves pair, ∀ move' ∈ x.pair_moves pair, move.1 ≠ move'.2 := by
    intro pair hpair move hmove move' hmove'
    obtain ⟨c, hc, rfl⟩ := exists_get x.areas pair hpair
    obtain ⟨i, hi, hchannel, rfl⟩ :=
      move_of_channel h.aligned hfits.frames hfits.packed hfits.dst c hc move hmove
    obtain ⟨k, hk, hchannel', rfl⟩ :=
      move_of_channel h.aligned hfits.frames hfits.packed hfits.dst c hc move' hmove'
    exact h.dst_ne_read hfits i k hi hk (hchannel.trans hchannel'.symm)
  obtain ⟨m', hloop⟩ := areas_copy_ok h.format h.width h.not_same x.areas m h.addr hapart
  refine ⟨0, m', ?_, ?_⟩
  · rw [h.copy_eq, hloop]
    rfl
  · have hmoves := areas_copy_run h.format h.width h.not_same x.areas m m' h.addr hloop
    rw [copied_iff h.apart, hmoves, ← hrun]
    exact run_eq_comp x.moves m

end Given

/-- Copies are right if and only if the number of frames, the size of a packed block and the bit offsets fit into
32 bits; an offset of a source may be cut where it leads to copies of the same bytes. -/
theorem copies_iff (x : Transfer) (same : Bool) (format : Int) (h : x.Given same format) :
    x.Copies same format ↔ x.Fits :=
  ⟨fun hcopies => h.fits_of_run (h.run_of_copies hcopies), h.copies_of_fits⟩

/-- Four frames of two channels, each in a block of its own, are put side by side. -/
def interleaving : Transfer where
  areas := [(⟨4096, 0#32, 32#32⟩, ⟨8192, 0#32, 16#32⟩), (⟨4096, 16#32, 32#32⟩, ⟨12288, 0#32, 16#32⟩)]
  dst_offset := 3#64
  src_offset := 5#64
  frames := 4#64
  width := 2

theorem interleaving_dst (c f j : Nat) (hc : c < 2) :
    interleaving.dst ⟨c, f, j⟩ = 4096 + 2 * c + 4 * (3 + f) + j := by
  rcases (by omega : c = 0 ∨ c = 1) with rfl | rfl
  · show 4096 + (0 + 32 * (3 + f)) / 8 + j = _
    omega
  · show 4096 + (16 + 32 * (3 + f)) / 8 + j = _
    omega

theorem interleaving_src (c f j : Nat) (hc : c < 2) :
    interleaving.src ⟨c, f, j⟩ = 8192 + 4096 * c + 2 * (5 + f) + j := by
  rcases (by omega : c = 0 ∨ c = 1) with rfl | rfl
  · show 8192 + (0 + 16 * (5 + f)) / 8 + j = _
    omega
  · show 12288 + (0 + 16 * (5 + f)) / 8 + j = _
    omega

theorem interleaving_given : interleaving.Given false 2 where
  format := rfl
  width := Nat.two_pos
  channels := List.cons_ne_nil _ _
  frames := by
    show 4#64 ≠ 0#64
    decide
  addr := by
    show ∀ pair ∈ interleaving.areas, _
    unfold interleaving
    decide
  aligned := by
    unfold Aligned interleaving
    decide
  apart := by
    constructor
    · rintro ⟨c, f, j⟩ hi ⟨c', f', j'⟩ hk heq
      obtain ⟨hc, hf, hj⟩ := (interleaving.mem_bytes _).mp hi
      obtain ⟨hc', hf', hj'⟩ := (interleaving.mem_bytes _).mp hk
      rw [interleaving_dst c f j hc, interleaving_dst c' f' j' hc'] at heq
      have hj : j < 2 := hj
      have hj' : j' < 2 := hj'
      have hc : c < 2 := hc
      have hc' : c' < 2 := hc'
      obtain rfl : f = f' := by omega
      obtain rfl : c = c' := by omega
      obtain rfl : j = j' := by omega
      rfl
    · rintro ⟨c, f, j⟩ hi ⟨c', f', j'⟩ hk
      obtain ⟨hc, hf, hj⟩ := (interleaving.mem_bytes _).mp hi
      obtain ⟨hc', -, -⟩ := (interleaving.mem_bytes _).mp hk
      rw [interleaving_dst c f j hc, interleaving_src c' f' j' hc']
      have hf : f < 4 := hf
      have hj : j < 2 := hj
      have hc : c < 2 := hc
      omega
  same := nofun

theorem copies_interleaving : interleaving.Copies false 2 := by
  refine (copies_iff interleaving false 2 interleaving_given).mpr ⟨by decide, ?_, ?_, ?_⟩
  · intro pair _ _
    show 4 * (8 * 2) < 4294967296
    decide
  · unfold interleaving
    decide
  · intro c hc
    have hc : c < 2 := hc
    rcases (by omega : c = 0 ∨ c = 1) with rfl | rfl <;> exact .inl (by decide)

/-! One frame of a packed channel with 16 bits, from and to given offsets. -/

def mono (offset : BitVec 64) : Transfer where
  areas := [(⟨4096, 0#32, 16#32⟩, ⟨8192, 0#32, 16#32⟩)]
  dst_offset := offset
  src_offset := 0#64
  frames := 1#64
  width := 2

theorem mono_given (offset : BitVec 64)
    (hapart : ∀ i ∈ (mono offset).bytes, ∀ k ∈ (mono offset).bytes, (mono offset).dst i ≠ (mono offset).src k) :
    (mono offset).Given false 2 where
  format := rfl
  width := Nat.two_pos
  channels := List.cons_ne_nil _ _
  frames := by
    show 1#64 ≠ 0#64
    decide
  addr := by
    intro pair hpair
    obtain rfl := List.mem_singleton.mp hpair
    decide
  aligned := by
    intro pair hpair
    obtain rfl := List.mem_singleton.mp hpair
    decide
  apart := by
    refine ⟨?_, hapart⟩
    rintro ⟨c, f, j⟩ hi ⟨c', f', j'⟩ hk heq
    obtain ⟨hc, hf, hj⟩ := ((mono offset).mem_bytes _).mp hi
    obtain ⟨hc', hf', hj'⟩ := ((mono offset).mem_bytes _).mp hk
    obtain rfl : c = 0 := Nat.lt_one_iff.mp hc
    obtain rfl : c' = 0 := Nat.lt_one_iff.mp hc'
    obtain rfl : f = 0 := Nat.lt_one_iff.mp hf
    obtain rfl : f' = 0 := Nat.lt_one_iff.mp hf'
    obtain rfl : j = j' := Nat.add_left_cancel heq
    rfl
  same := nofun

/-- The frame at 2 to the 28th is written where the first one is. -/
theorem high_offset_is_cut : ¬ ∀ (x : Transfer) same format, x.Given same format → x.Copies same format := by
  intro h
  have hgiven := mono_given 268435456#64 (by decide)
  have hfits := hgiven.fits_of_run (hgiven.run_of_copies (h _ _ _ hgiven))
  exact absurd (hfits.dst _ List.mem_cons_self) (by decide)

end Transfer

end Salsa.Pcm.Samples
