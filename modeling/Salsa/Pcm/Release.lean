import Salsa.Lib.Live
import Salsa.Lib.Run
import Salsa.Pcm.Areas
import Salsa.Pcm.Ring

/-!
# Areas over a run

The mappings of the channel areas, from `snd_pcm_open` to `snd_pcm_close`.
-/

namespace Salsa.Pcm.Areas

open HwParams Mappings Run

/-! ## One call -/

theorem info_loop_spec (o : AreaAnswers) (c : Nat) (channels : List SndPcmChannelInfo)
    (hfree : ∀ i ∈ channels, i.addr = 0) : (info_loop o c channels).2.length = channels.length ∧
      (∀ i ∈ (info_loop o c channels).2, i.addr = 0) ∧ (0 ≤ (info_loop o c channels).1 →
        (info_loop o c channels).1 = 0 ∧
          ∀ x i, (info_loop o c channels).2[x]? = some i → o.channel_info (c + x) = .ok i.info) := by
  induction channels generalizing c with
  | nil => exact ⟨rfl, hfree, fun _ => ⟨rfl, fun x i hi => nomatch hi⟩⟩
  | cons i rest ih =>
    have hi := hfree i List.mem_cons_self
    obtain ⟨hlength, haddrs, hinfos⟩ := ih (c + 1) fun j hj => hfree j (List.mem_cons_of_mem i hj)
    unfold info_loop
    cases hinfo : o.channel_info c with
    | error e =>
      refine ⟨rfl, fun j hj => ?_, fun hpos => absurd (Errno.neg_lt_zero e) (Int.not_lt.mpr hpos)⟩
      rcases List.mem_cons.mp hj with rfl | hj
      · exact hi
      · exact hfree j (List.mem_cons_of_mem i hj)
    | ok info =>
      refine ⟨congrArg (· + 1) hlength, fun j hj => ?_, fun hpos => ?_⟩
      · rcases List.mem_cons.mp hj with rfl | hj
        · exact hi
        · exact haddrs j hj
      · obtain ⟨hzero, hinfos⟩ := hinfos hpos
        refine ⟨hzero, fun x j hj => ?_⟩
        cases x with
        | zero =>
          obtain rfl := Option.some.inj hj
          exact hinfo
        | succ x =>
          have hj := hinfos x j hj
          rwa [Nat.add_assoc, Nat.add_comm 1] at hj

/-- The channels of a PCM tell what is mapped. -/
structure Tracked (psz : PageSize) (others : Space) (pcm : MmapPcm) (maps : Space) : Prop where
  bare : pcm.mmap_channels = none → Mappings.Same others maps
  mapped : ∀ channels, pcm.mmap_channels = some channels → channels.length = pcm.channels.toNat ∧
    Held psz pcm.buffer_size pcm.sample_bits others channels maps

section Calls

variable (psz : PageSize) (others : Space) (o : AreaAnswers) (pcm : MmapPcm) (maps : Space)

theorem Tracked.of_same (h : Mappings.Same others maps) (hnone : pcm.mmap_channels = none) :
    Tracked psz others pcm maps where
  bare _ := h
  mapped channels hsome := by
    rw [hnone] at hsome
    cases hsome

theorem munmap_spec (ho : ∀ c, o.munmap c = none) (h : Tracked psz others pcm maps) :
    (_snd_pcm_munmap psz o pcm maps).2.1.mmap_channels = none ∧
      Mappings.Same others (_snd_pcm_munmap psz o pcm maps).2.2 := by
  unfold _snd_pcm_munmap
  cases hchannels : pcm.mmap_channels with
  | none => exact ⟨hchannels, h.bare hchannels⟩
  | some channels =>
    obtain ⟨hlength, hheld⟩ := h.mapped channels hchannels
    obtain ⟨channels', maps', hloop, hsame⟩ :=
      munmap_loop_spec o ho pcm.channels.toNat 0 channels maps hlength hheld
    dsimp only
    rw [hloop]
    exact ⟨rfl, hsame⟩

theorem munmap_sample_bits : (_snd_pcm_munmap psz o pcm maps).2.1.sample_bits = pcm.sample_bits := by
  unfold _snd_pcm_munmap
  split
  · rfl
  · dsimp only
    split_ifs <;> rfl

theorem mmap_sample_bits : (_snd_pcm_mmap psz o pcm maps).2.1.sample_bits = pcm.sample_bits := by
  unfold _snd_pcm_mmap
  dsimp only
  split_ifs <;> exact munmap_sample_bits psz o pcm maps

/-- What the channels are after they were mapped. -/
structure Mapped (channels : List SndPcmChannelInfo) (areas : Option (List SndPcmChannelArea)) : Prop where
  infos : ∀ x i, channels[x]? = some i → o.channel_info x = .ok i.info
  addrs : ∀ i ∈ channels, i.addr ≠ 0
  areas : areas = some (channels.map area)

theorem mmap_spec (before : Space) (hbefore : (_snd_pcm_munmap psz o pcm maps).2.2 = before) :
    let result := _snd_pcm_mmap psz o pcm maps
    (result.2.1.mmap_channels = none ∧ result.2.2 = before ∧ result.1 < 0) ∨ ∃ channels,
      result.2.1.mmap_channels = some channels ∧ channels.length = pcm.channels.toNat ∧
        Held psz pcm.buffer_size pcm.sample_bits before channels result.2.2 ∧ Grouped channels ∧
          (0 ≤ result.1 → result.1 = 0 ∧ Mapped o channels result.2.1.running_areas) := by
  have hkept := munmap_toSndPcm psz o pcm maps
  have hbits := munmap_sample_bits psz o pcm maps
  have hnomem : -ENOMEM < (0 : Int) := by decide
  unfold _snd_pcm_mmap
  generalize _snd_pcm_munmap psz o pcm maps = unmapped at hkept hbits hbefore ⊢
  obtain ⟨_, pcm', maps'⟩ := unmapped
  have hkept : pcm'.toSndPcm = pcm.toSndPcm := hkept
  have hbits : pcm'.sample_bits = pcm.sample_bits := hbits
  obtain rfl : maps' = before := hbefore
  dsimp only
  rw [hkept, hbits]
  have hzero : ∀ i ∈ List.replicate pcm.channels.toNat CHANNEL_ZERO, i.addr = 0 := fun i hi =>
    (List.eq_of_mem_replicate hi).symm ▸ rfl
  obtain ⟨hlength, hfree, hinfos⟩ := info_loop_spec o 0 _ hzero
  rw [List.length_replicate] at hlength
  generalize info_loop o 0 (List.replicate pcm.channels.toNat CHANNEL_ZERO) = looked at hlength hfree hinfos ⊢
  have hheld : Held psz pcm.buffer_size pcm.sample_bits maps' looked.2 maps' :=
    Held.of_same (Mappings.Same.refl maps') hfree
  have hgrouped : Grouped looked.2 := Grouped.of_free hfree
  split_ifs with hchannels hareas herr
  · refine Or.inr ⟨_, rfl, hlength, hheld, hgrouped, ?_⟩
    exact fun hpos => absurd herr (Int.not_lt.mpr hpos)
  · obtain ⟨-, hinfos⟩ := hinfos (Int.not_lt.mp herr)
    have hmaps := mmap_loop_spec o pcm.channels.toNat 0 [] looked.2 maps' hlength
      (fun i hi => absurd hi List.not_mem_nil) hheld hgrouped
    have hkeep := hmaps.infos
    refine Or.inr ⟨_, rfl, ?_, hmaps.held, hmaps.grouped, fun hpos => ?_⟩
    · have hsame := congrArg List.length hkeep
      rw [List.length_map, List.length_map] at hsame
      exact hsame.trans hlength
    · obtain ⟨hzero, haddrs, hareas⟩ := hmaps.done hpos
      refine ⟨hzero, fun x i hi => ?_, haddrs, congrArg some hareas⟩
      have hinfo : (looked.2.map SndPcmChannelInfo.info)[x]? = some i.info := by
        rw [← hkeep, List.getElem?_map]
        exact congrArg (Option.map SndPcmChannelInfo.info) hi
      rw [List.getElem?_map] at hinfo
      obtain ⟨j, hj, heq⟩ := Option.map_eq_some_iff.mp hinfo
      have hj := hinfos x j hj
      rwa [Nat.zero_add, heq] at hj
  · exact Or.inl ⟨rfl, rfl, hnomem⟩
  · exact Or.inl ⟨rfl, rfl, hnomem⟩

theorem mmap_tracked (ho : ∀ c, o.munmap c = none) (h : Tracked psz others pcm maps) :
    Tracked psz others (_snd_pcm_mmap psz o pcm maps).2.1 (_snd_pcm_mmap psz o pcm maps).2.2 := by
  obtain ⟨-, hsame⟩ := munmap_spec psz others o pcm maps ho h
  have hkept := mmap_toSndPcm psz o pcm maps
  have hbits := mmap_sample_bits psz o pcm maps
  rcases mmap_spec psz o pcm maps _ rfl with ⟨hnone, heq, -⟩ | ⟨channels, hsome, hlength, hheld, -, -⟩
  · exact Tracked.of_same psz others _ _ (heq ▸ hsame) hnone
  · constructor
    · intro hnone
      rw [hsome] at hnone
      cases hnone
    · intro channels' hchannels
      rw [hsome] at hchannels
      obtain rfl := Option.some.inj hchannels
      rw [hkept, hbits]
      exact ⟨hlength, hheld.of_base hsame⟩

end Calls

/-! ## Calls of the program -/

/-- An open PCM: the channels tell what is mapped, and they are there only when it is set up. -/
structure Opened (psz : PageSize) (others : Space) (pcm : MmapPcm) (maps : Space) : Prop where
  tracked : Tracked psz others pcm maps
  setup : pcm.mmap_channels ≠ none → pcm.setup

structure Frees (k : Kernel) (o : AreaAnswers) : Prop where
  munmap : ∀ c, o.munmap c = none
  hw_free : k.hw_free = 0

section Program

variable (psz : PageSize) (behind : Nat → Int) (others : Space) (k : Kernel) (o : AreaAnswers)
  (stack : Fin 12 → BitVec 32) (pcm : MmapPcm) (maps : Space) (params : SndPcmHwParams)

theorem Opened.bare {psz others pcm maps} (h : Opened psz others pcm maps) (hsetup : ¬ pcm.setup) :
    pcm.mmap_channels = none := by
  by_contra hne
  exact hsetup (h.setup hne)

theorem Opened.of_same (h : Mappings.Same others maps) (hnone : pcm.mmap_channels = none) :
    Opened psz others pcm maps :=
  ⟨Tracked.of_same psz others pcm maps h hnone, fun hne => absurd hnone hne⟩

theorem hw_free_spec (hf : Frees k o) (h : Opened psz others pcm maps) :
    (snd_pcm_hw_free psz k o pcm maps).2.1.mmap_channels = none ∧
      Mappings.Same others (snd_pcm_hw_free psz k o pcm maps).2.2 := by
  unfold snd_pcm_hw_free
  by_cases hsetup : pcm.setup
  · rw [if_neg (not_not.mpr hsetup), hf.hw_free]
    exact munmap_spec psz others o pcm maps hf.munmap h.tracked
  · rw [if_pos hsetup]
    have hnone := h.bare hsetup
    exact ⟨hnone, h.tracked.bare hnone⟩

theorem map_areas_opened (hf : Frees k o) (h : Mappings.Same others maps) (hnone : pcm.mmap_channels = none)
    (hsetup : pcm.setup) :
    Opened psz others (map_areas psz o pcm maps).2.1 (map_areas psz o pcm maps).2.2 := by
  have hkept := map_areas_toSndPcm psz o pcm maps
  refine ⟨?_, fun _ => by rw [hkept]; exact hsetup⟩
  have hmapped := mmap_tracked psz others o pcm maps hf.munmap (Tracked.of_same psz others pcm maps h hnone)
  unfold map_areas
  split_ifs
  · dsimp only
    split_ifs
    · obtain ⟨hnone, hsame⟩ := munmap_spec psz others o _ _ hf.munmap hmapped
      exact Tracked.of_same psz others _ _ hsame hnone
    · exact hmapped
  · exact Tracked.of_same psz others pcm maps h hnone

theorem sw_params_setup (pcm : SndPcm) (sw : SndPcmSwParams) :
    (snd_pcm_sw_params k pcm sw).2.setup = pcm.setup := by
  unfold snd_pcm_sw_params
  split_ifs <;> rfl

theorem _snd_pcm_hw_params_opened (hf : Frees k o) (h : Opened psz others pcm maps)
    (result : Int × MmapPcm × Space × SndPcmHwParams)
    (hcall : _snd_pcm_hw_params psz behind k o stack pcm maps params = some result) :
    Opened psz others result.2.1 result.2.2.1 := by
  unfold _snd_pcm_hw_params at hcall
  dsimp only at hcall
  split at hcall
  · obtain rfl := Option.some.inj hcall
    exact h
  obtain ⟨chosen, -, hcall⟩ := Option.bind_eq_some_iff.mp hcall
  obtain ⟨hnone, hsame⟩ := hw_free_spec psz others k o pcm maps hf h
  split at hcall
  · obtain rfl := Option.some.inj hcall
    exact Opened.of_same psz others _ _ hsame hnone
  · obtain ⟨sw, -, rfl⟩ := Option.map_eq_some_iff.mp hcall
    refine map_areas_opened psz others k o _ _ hf hsame hnone ?_
    exact (sw_params_setup k _ sw).trans rfl

theorem prepare_opened (h : Opened psz others pcm maps) :
    Opened psz others { pcm with toSndPcm := (snd_pcm_prepare k pcm.toSndPcm).2 } maps := by
  unfold snd_pcm_prepare
  split_ifs
  · exact h
  · exact ⟨⟨h.tracked.bare, h.tracked.mapped⟩, h.setup⟩

theorem snd_pcm_hw_params_opened (hf : Frees k o) (h : Opened psz others pcm maps)
    (result : Int × MmapPcm × Space × SndPcmHwParams)
    (hcall : snd_pcm_hw_params psz behind k o stack pcm maps params = some result) :
    Opened psz others result.2.1 result.2.2.1 := by
  obtain ⟨⟨err, pcm', maps', params'⟩, hparams, rfl⟩ := Option.map_eq_some_iff.mp hcall
  have hopened := _snd_pcm_hw_params_opened psz behind others k o stack pcm maps params hf h _ hparams
  dsimp only
  split_ifs
  · exact hopened
  · exact prepare_opened psz others k pcm' maps' hopened

theorem close_spec (hf : Frees k o) (h : Opened psz others pcm maps) :
    Mappings.Same others (snd_pcm_close psz k o pcm maps) := by
  unfold snd_pcm_close
  split_ifs with hsetup
  · obtain ⟨hnone, hsame⟩ := hw_free_spec psz others k o pcm maps hf h
    exact (munmap_spec psz others o _ _ hf.munmap (Tracked.of_same psz others _ _ hsame hnone)).2
  · exact (munmap_spec psz others o pcm maps hf.munmap h.tracked).2

end Program

/-! ## Runs -/

structure State where
  pcm : Option MmapPcm
  maps : Space

inductive Act
  | hw_params (k : Kernel) (o : AreaAnswers) (stack : Fin 12 → BitVec 32) (params : SndPcmHwParams)
  | hw_free (k : Kernel) (o : AreaAnswers)
  | close (k : Kernel) (o : AreaAnswers)

def step (psz : PageSize) (behind : Nat → Int) (s : State) : Act → Option State
  | .hw_params k o stack params => s.pcm.bind fun pcm =>
    (snd_pcm_hw_params psz behind k o stack pcm s.maps params).map fun (_, pcm, maps, _) => ⟨some pcm, maps⟩
  | .hw_free k o => s.pcm.map fun pcm =>
    let (_, pcm, maps) := snd_pcm_hw_free psz k o pcm s.maps
    ⟨some pcm, maps⟩
  | .close k o => s.pcm.map fun pcm => ⟨none, snd_pcm_close psz k o pcm s.maps⟩

def Act.Frees : Act → Prop
  | .hw_params k o _ _ => Areas.Frees k o
  | .hw_free k o => Areas.Frees k o
  | .close k o => Areas.Frees k o

/-- What `snd_pcm_open` hands out, next to the mappings of others. -/
def opened (stream : SndPcmStream) (others : Space) : State :=
  ⟨some { snd_pcm_open stream with sample_bits := 0, mmap_channels := none, running_areas := none }, others⟩

/-- Every call of `munmap` has met a mapping of its length, no mapping of others is gone, and after the PCM is
closed there are no more than those. -/
structure Accounted (others : Space) (s : State) : Prop where
  stray : s.maps.stray = others.stray
  kept : ∀ a ∈ others.addrs, a ∈ s.maps.addrs ∧ s.maps.region a = others.region a
  closed : s.pcm = none → s.maps.addrs = others.addrs

structure Inv (psz : PageSize) (others : Space) (s : State) : Prop where
  opened : ∀ pcm, s.pcm = some pcm → Opened psz others pcm s.maps
  closed : s.pcm = none → Mappings.Same others s.maps

theorem Same.accounted {others : Space} {s : State} (h : Mappings.Same others s.maps) : Accounted others s :=
  ⟨h.stray, fun a ha => ⟨h.addrs ▸ ha, h.region a ha⟩, fun _ => h.addrs⟩

theorem Inv.accounted {psz : PageSize} {others : Space} {s : State} (h : Inv psz others s) : Accounted others s := by
  cases hpcm : s.pcm with
  | none => exact Same.accounted (h.closed hpcm)
  | some pcm =>
    have hopened := h.opened pcm hpcm
    cases hchannels : pcm.mmap_channels with
    | none => exact Same.accounted (hopened.tracked.bare hchannels)
    | some channels =>
      obtain ⟨-, hheld⟩ := hopened.tracked.mapped channels hchannels
      refine ⟨hheld.stray, fun a ha => ⟨(hheld.addrs a).mpr (Or.inl ha), hheld.kept a ha⟩, fun hnone => ?_⟩
      rw [hpcm] at hnone
      cases hnone

theorem inv_opened (psz : PageSize) (stream : SndPcmStream) (others : Space) :
    Inv psz others (opened stream others) where
  opened pcm hpcm := by
    obtain rfl := Option.some.inj hpcm
    exact Opened.of_same psz others _ _ (Mappings.Same.refl others) rfl
  closed hnone := by cases hnone

theorem inv_some {psz : PageSize} {others : Space} {pcm : MmapPcm} {maps : Space} (h : Opened psz others pcm maps) :
    Inv psz others ⟨some pcm, maps⟩ where
  opened pcm' hpcm := by
    obtain rfl := Option.some.inj hpcm
    exact h
  closed hnone := by cases hnone

theorem inv_step (psz : PageSize) (behind : Nat → Int) (others : Space) (s : State) (a : Act) (s' : State)
    (h : Inv psz others s) (ha : a.Frees) (hstep : step psz behind s a = some s') : Inv psz others s' := by
  cases a with
  | hw_params k o stack params =>
    obtain ⟨pcm, hpcm, hstep⟩ := Option.bind_eq_some_iff.mp hstep
    obtain ⟨result, hcall, rfl⟩ := Option.map_eq_some_iff.mp hstep
    exact inv_some (snd_pcm_hw_params_opened psz behind others k o stack pcm s.maps params ha (h.opened pcm hpcm)
      result hcall)
  | hw_free k o =>
    obtain ⟨pcm, hpcm, rfl⟩ := Option.map_eq_some_iff.mp hstep
    obtain ⟨hnone, hsame⟩ := hw_free_spec psz others k o pcm s.maps ha (h.opened pcm hpcm)
    exact inv_some (Opened.of_same psz others _ _ hsame hnone)
  | close k o =>
    obtain ⟨pcm, hpcm, rfl⟩ := Option.map_eq_some_iff.mp hstep
    exact ⟨fun _ hnone => (nomatch hnone), fun _ => close_spec psz others k o pcm s.maps ha (h.opened pcm hpcm)⟩

/-- What the areas are after a call of `_snd_pcm_mmap`: the channels at one offset share one new mapping of it,
which holds all their samples. -/
def SharedAreas (o : AreaAnswers) (pcm : MmapPcm) (before maps : Space) : Prop :=
  ∃ channels, pcm.mmap_channels = some channels ∧ channels.length = pcm.channels.toNat ∧
    Mapped o channels pcm.running_areas ∧
    (∀ i ∈ channels, ∀ j ∈ channels, i.info.offset = j.info.offset ↔ i.addr = j.addr) ∧
    ∀ i ∈ channels, i.addr ∉ before.addrs ∧ i.addr ∈ maps.addrs ∧
      (maps.region i.addr).offset = i.info.offset ∧ ∀ f < pcm.buffer_size.toNat,
        i.info.first.toNat + i.info.step.toNat * f + pcm.sample_bits.toNat ≤ 8 * (maps.region i.addr).length.toNat

theorem mmap_shares (psz : PageSize) (o : AreaAnswers) (pcm : MmapPcm) (maps : Space)
    (hok : 0 ≤ (_snd_pcm_mmap psz o pcm maps).1) (hsize : 1 ≤ pcm.buffer_size.toNat)
    (hfits : ∀ c < pcm.channels.toNat, ∀ info, o.channel_info c = .ok info →
      Fits psz pcm.buffer_size pcm.sample_bits info) :
    SharedAreas o (_snd_pcm_mmap psz o pcm maps).2.1 (_snd_pcm_munmap psz o pcm maps).2.2
      (_snd_pcm_mmap psz o pcm maps).2.2 := by
  have hkept := mmap_toSndPcm psz o pcm maps
  have hbits := mmap_sample_bits psz o pcm maps
  rcases mmap_spec psz o pcm maps _ rfl with ⟨-, -, hneg⟩ | ⟨channels, hsome, hlength, hheld, hgrouped, hdone⟩
  · exact absurd hneg (Int.not_lt.mpr hok)
  obtain ⟨-, hmapped⟩ := hdone hok
  unfold SharedAreas
  rw [hkept, hbits]
  refine ⟨channels, hsome, hlength, hmapped, fun i hi j hj => ?_, fun i hi => ?_⟩
  · exact ⟨hgrouped.shared i hi j hj, hgrouped.apart i hi j hj (hmapped.addrs i hi)⟩
  · have hne := hmapped.addrs i hi
    have hregion := hheld.region i hi hne
    refine ⟨hheld.new i hi hne, hheld.mem i hi hne, by rw [hregion], fun f hf => ?_⟩
    have hall : ∀ j ∈ channels.filter (fun j => j.addr = i.addr), Fits psz pcm.buffer_size pcm.sample_bits j.info := by
      intro j hj
      obtain ⟨x, hx⟩ := List.getElem?_of_mem (List.mem_of_mem_filter hj)
      obtain ⟨hlt, -⟩ := List.getElem?_eq_some_iff.mp hx
      exact hfits x (hlength ▸ hlt) j.info (hmapped.infos x j hx)
    have hge := shared_size_ge psz pcm.buffer_size pcm.sample_bits _ hsize hall i
      (List.mem_filter.mpr ⟨hi, decide_eq_true rfl⟩)
    rw [hregion]
    refine Nat.le_trans ?_ hge
    unfold bits
    have hstep : i.info.step.toNat * f ≤ i.info.step.toNat * (pcm.buffer_size.toNat - 1) :=
      Nat.mul_le_mul_left _ (by omega)
    omega

/-- Mapped areas are shared by offset and large enough, and in a run where nothing fails to be freed each mapping
is unmapped once, with its length. -/
theorem areas_shared_and_released (psz : PageSize) :
    (∀ (o : AreaAnswers) (pcm : MmapPcm) (maps : Space), 0 ≤ (_snd_pcm_mmap psz o pcm maps).1 →
      1 ≤ pcm.buffer_size.toNat →
      (∀ c < pcm.channels.toNat, ∀ info, o.channel_info c = .ok info →
        Fits psz pcm.buffer_size pcm.sample_bits info) →
        SharedAreas o (_snd_pcm_mmap psz o pcm maps).2.1 (_snd_pcm_munmap psz o pcm maps).2.2
          (_snd_pcm_mmap psz o pcm maps).2.2) ∧
    ∀ (behind : Nat → Int) (stream : SndPcmStream) (others : Space) (as : List Act) (s : State),
      (∀ a ∈ as, a.Frees) → run (step psz behind) (opened stream others) as = some s → Accounted others s := by
  refine ⟨mmap_shares psz, fun behind stream others as s has hrun => ?_⟩
  exact (run_invariant (Inv psz others) (fun _ a => a.Frees) (inv_step psz behind others) _ s as
    (inv_opened psz stream others) (allSteps_of_mem Act.Frees _ as has) hrun).accounted

/-! ## Two channels in one mapping -/

def page : PageSize := ⟨4096#64, by decide⟩

def next_addr : Answer where
  fails := none
  pick addrs := addrs.sup id + 1
  unused := Live.above_notMem
  nonnull _ := Nat.succ_ne_zero _

def interleaved : AreaAnswers where
  channels := true
  areas := true
  channel_info c := .ok ⟨BitVec.ofNat 32 c, 0, BitVec.ofNat 32 (8 * c), 16⟩
  mmap _ := next_addr
  munmap _ := none

/-- `settled`, with two channels. -/
def stereo : SndPcmHwParams :=
  { settled with intervals := fun n => point (if n = CHANNELS then 2#32 else 1024#32) }

def stereo_pcm : MmapPcm :=
  { snd_pcm_open .playback with
    channels := 2, buffer_size := 1024, sample_bits := 8, mmap_channels := none, running_areas := none }

def nothing : Space := ⟨∅, fun _ => ⟨0, 0⟩, []⟩

theorem stereo_shared_and_released :
    SharedAreas interleaved (_snd_pcm_mmap page interleaved stereo_pcm nothing).2.1 nothing
        (_snd_pcm_mmap page interleaved stereo_pcm nothing).2.2 ∧
      ∃ s, run (step page fun _ => 0) (opened .playback nothing)
        [.hw_params willing interleaved (fun _ => 0#32) stereo, .close willing interleaved] = some s ∧
          s.pcm = none ∧ Accounted nothing s := by
  obtain ⟨hshared, hreleased⟩ := areas_shared_and_released page
  have hfrees : Frees willing interleaved := ⟨fun _ => rfl, rfl⟩
  constructor
  · refine hshared interleaved stereo_pcm nothing (by decide) (by decide) fun c hc info hinfo => ?_
    obtain rfl := Except.ok.inj hinfo
    have hc : c < 2 := hc
    unfold Fits bits
    obtain rfl | rfl : c = 0 ∨ c = 1 := by omega
    · decide
    · decide
  · have hclosed : (run (step page fun _ => 0) (opened .playback nothing)
        [.hw_params willing interleaved (fun _ => 0#32) stereo, .close willing interleaved]).map
          (fun s => s.pcm.isNone) = some true := by
      decide +kernel
    obtain ⟨s, hs, hnone⟩ := Option.map_eq_some_iff.mp hclosed
    refine ⟨s, hs, Option.isNone_iff_eq_none.mp hnone, hreleased _ _ _ _ s (fun a ha => ?_) hs⟩
    rcases List.mem_cons.mp ha with rfl | ha
    · exact hfrees
    · rcases List.mem_cons.mp ha with rfl | ha
      · exact hfrees
      · exact absurd ha List.not_mem_nil

end Salsa.Pcm.Areas
