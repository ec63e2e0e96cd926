import Salsa.Pcm.Mmap

/-!
# What the channels hold

The mappings that the channels stand for, and what the loops of `_snd_pcm_mmap` and `_snd_pcm_munmap`
leave of them.
-/

namespace Salsa.Pcm.Areas

open Mappings

section Held

variable (psz : PageSize) (buffer_size : Uframes) (sample_bits : BitVec 32) (others : Space)

/-- The size of the mapping that a list of channels shares. -/
def shared_size : List SndPcmChannelInfo → Uframes
  | [] => 0#64
  | i :: shared => group_size psz buffer_size sample_bits i shared

/-- Next to the mappings of others there is one for each address of a channel, for all that have it. -/
structure Held (channels : List SndPcmChannelInfo) (maps : Space) : Prop where
  stray : maps.stray = others.stray
  addrs : ∀ a, a ∈ maps.addrs ↔ a ∈ others.addrs ∨ a ≠ 0 ∧ ∃ i ∈ channels, i.addr = a
  new : ∀ i ∈ channels, i.addr ≠ 0 → i.addr ∉ others.addrs
  kept : ∀ a ∈ others.addrs, maps.region a = others.region a
  region : ∀ i ∈ channels, i.addr ≠ 0 → maps.region i.addr =
    ⟨shared_size psz buffer_size sample_bits (channels.filter fun j => j.addr = i.addr), i.info.offset⟩

/-- Channels have the same address when they have the same offset, and only then. -/
structure Grouped (channels : List SndPcmChannelInfo) : Prop where
  shared : ∀ i ∈ channels, ∀ j ∈ channels, i.info.offset = j.info.offset → i.addr = j.addr
  apart : ∀ i ∈ channels, ∀ j ∈ channels, i.addr ≠ 0 → i.addr = j.addr → i.info.offset = j.info.offset

variable {psz buffer_size sample_bits others} {channels : List SndPcmChannelInfo} {maps : Space}

theorem Held.of_same (h : Mappings.Same others maps) (hfree : ∀ i ∈ channels, i.addr = 0) :
    Held psz buffer_size sample_bits others channels maps where
  stray := h.stray
  addrs a := by
    rw [h.addrs]
    constructor
    · exact Or.inl
    · rintro (ha | ⟨ha, i, hi, rfl⟩)
      · exact ha
      · exact absurd (hfree i hi) ha
  new i hi hne := absurd (hfree i hi) hne
  kept := h.region
  region i hi hne := absurd (hfree i hi) hne

theorem Held.same (h : Held psz buffer_size sample_bits others channels maps) (hfree : ∀ i ∈ channels, i.addr = 0) :
    Mappings.Same others maps where
  addrs := by
    ext a
    rw [h.addrs]
    constructor
    · rintro (ha | ⟨ha, i, hi, rfl⟩)
      · exact ha
      · exact absurd (hfree i hi) ha
    · exact Or.inl
  region := h.kept
  stray := h.stray

theorem Held.of_base {base : Space} (h : Held psz buffer_size sample_bits base channels maps)
    (hbase : Mappings.Same others base) : Held psz buffer_size sample_bits others channels maps where
  stray := h.stray.trans hbase.stray
  addrs := hbase.addrs ▸ h.addrs
  new := hbase.addrs ▸ h.new
  kept a ha := (h.kept a (hbase.addrs.symm ▸ ha)).trans (hbase.region a ha)
  region := h.region

theorem Held.mem (h : Held psz buffer_size sample_bits others channels maps) (i : SndPcmChannelInfo)
    (hi : i ∈ channels) (hne : i.addr ≠ 0) : i.addr ∈ maps.addrs := (h.addrs i.addr).mpr (Or.inr ⟨hne, i, hi, rfl⟩)

theorem Grouped.of_free (hfree : ∀ i ∈ channels, i.addr = 0) : Grouped channels where
  shared i hi j hj _ := (hfree i hi).trans (hfree j hj).symm
  apart i hi _ _ hne _ := absurd (hfree i hi) hne

/-! ## Unmapping -/

theorem mem_clear_addr (i j : SndPcmChannelInfo) (hne : j.addr ≠ 0) :
    j ∈ clear_addr i channels ↔ j ∈ channels ∧ j.addr ≠ i.addr := by
  unfold clear_addr
  rw [List.mem_map]
  constructor
  · rintro ⟨k, hk, rfl⟩
    by_cases heq : k.addr = i.addr
    · rw [if_pos heq] at hne
      exact absurd rfl hne
    · rw [if_neg heq]
      exact ⟨hk, heq⟩
  · rintro ⟨hj, heq⟩
    exact ⟨j, hj, if_neg heq⟩

theorem filter_clear_addr (i : SndPcmChannelInfo) (a : Nat) (ha : a ≠ 0) (hne : a ≠ i.addr) :
    (clear_addr i channels).filter (fun j => j.addr = a) = channels.filter fun j => j.addr = a := by
  induction channels with
  | nil => rfl
  | cons k rest ih =>
    have hcons : clear_addr i (k :: rest) =
        (if k.addr = i.addr then { k with addr := 0 } else k) :: clear_addr i rest := rfl
    rw [hcons, List.filter_cons, List.filter_cons, ih]
    by_cases heq : k.addr = i.addr
    · have hka : k.addr ≠ a := fun h => hne (h.symm.trans heq)
      simp only [heq, if_true, decide_eq_true_eq, ha.symm, hne.symm, if_false]
    · simp only [heq, if_false]

theorem Held.skip {i : SndPcmChannelInfo} {rest : List SndPcmChannelInfo}
    (h : Held psz buffer_size sample_bits others (i :: rest) maps) (hi : i.addr = 0) :
    Held psz buffer_size sample_bits others rest maps where
  stray := h.stray
  addrs a := by
    rw [h.addrs]
    constructor
    · rintro (ha | ⟨ha, j, hj, rfl⟩)
      · exact Or.inl ha
      · rcases List.mem_cons.mp hj with rfl | hj
        · exact absurd hi ha
        · exact Or.inr ⟨ha, j, hj, rfl⟩
    · rintro (ha | ⟨ha, j, hj, rfl⟩)
      · exact Or.inl ha
      · exact Or.inr ⟨ha, j, List.mem_cons_of_mem i hj, rfl⟩
  new j hj := h.new j (List.mem_cons_of_mem i hj)
  kept := h.kept
  region j hj hne := by
    have hij : i.addr ≠ j.addr := fun heq => hne (heq.symm.trans hi)
    rw [h.region j (List.mem_cons_of_mem i hj) hne, List.filter_cons, if_neg (by simpa using hij)]

theorem Held.clear {i : SndPcmChannelInfo} {rest : List SndPcmChannelInfo}
    (h : Held psz buffer_size sample_bits others (i :: rest) maps) (hi : i.addr ≠ 0) :
    Held psz buffer_size sample_bits others (clear_addr i rest) (maps.remove i.addr) where
  stray := h.stray
  addrs a := by
    have hnew := h.new i List.mem_cons_self hi
    show a ∈ maps.addrs.erase i.addr ↔ _
    rw [Finset.mem_erase, h.addrs]
    constructor
    · rintro ⟨hne, ha | ⟨ha, j, hj, rfl⟩⟩
      · exact Or.inl ha
      · rcases List.mem_cons.mp hj with rfl | hj
        · exact absurd rfl hne
        · exact Or.inr ⟨ha, j, (mem_clear_addr i j ha).mpr ⟨hj, hne⟩, rfl⟩
    · rintro (ha | ⟨ha, j, hj, rfl⟩)
      · refine ⟨?_, Or.inl ha⟩
        rintro rfl
        exact hnew ha
      · obtain ⟨hj, hne⟩ := (mem_clear_addr i j ha).mp hj
        exact ⟨hne, Or.inr ⟨ha, j, List.mem_cons_of_mem i hj, rfl⟩⟩
  new j hj hne := h.new j (List.mem_cons_of_mem i ((mem_clear_addr i j hne).mp hj).1) hne
  kept := h.kept
  region j hj hne := by
    obtain ⟨hj, hij⟩ := (mem_clear_addr i j hne).mp hj
    show maps.region j.addr = _
    rw [h.region j (List.mem_cons_of_mem i hj) hne, List.filter_cons, if_neg (by simpa using hij.symm),
      filter_clear_addr i j.addr hne hij]

/-- All mappings of the channels go, each with the length that it was made with. -/
theorem munmap_loop_spec (o : AreaAnswers) (ho : ∀ c, o.munmap c = none) (n c : Nat)
    (channels : List SndPcmChannelInfo) (maps : Space) (hn : channels.length = n)
    (h : Held psz buffer_size sample_bits others channels maps) : ∃ channels' maps',
    munmap_loop psz buffer_size sample_bits o n c channels maps = (0, channels', maps') ∧
      Mappings.Same others maps' := by
  induction n generalizing c channels maps with
  | zero =>
    obtain rfl := List.length_eq_zero_iff.mp hn
    exact ⟨[], maps, rfl, h.same fun i hi => absurd hi List.not_mem_nil⟩
  | succ n ih =>
    obtain ⟨i, rest, rfl⟩ := List.exists_cons_of_length_eq_add_one hn
    have hrest : rest.length = n := Nat.succ.inj hn
    unfold munmap_loop
    by_cases hi : i.addr = 0
    · rw [if_pos hi]
      obtain ⟨channels', maps', hloop, hsame⟩ := ih (c + 1) rest maps hrest (h.skip hi)
      rw [hloop]
      exact ⟨i :: channels', maps', rfl, hsame⟩
    · rw [if_neg hi, ho]
      have hlength : (maps.region i.addr).length = group_size psz buffer_size sample_bits i
          (rest.filter fun j => j.addr = i.addr) := by
        rw [h.region i List.mem_cons_self hi, List.filter_cons, if_pos (by simp)]
        rfl
      have hclear : (clear_addr i rest).length = n := (List.length_map _).trans hrest
      dsimp only
      rw [munmap_of_mem i.addr _ maps (h.mem i List.mem_cons_self hi) hlength]
      obtain ⟨channels', maps', hloop, hsame⟩ := ih (c + 1) (clear_addr i rest) _ hclear (h.clear hi)
      rw [hloop]
      exact ⟨{ i with addr := 0 } :: channels', maps', rfl, hsame⟩

/-! ## Mapping -/

def assign (offset : BitVec 64) (addr : Nat) (i : SndPcmChannelInfo) : SndPcmChannelInfo :=
  if i.info.offset = offset then { i with addr } else i

theorem assign_info (offset : BitVec 64) (addr : Nat) (i : SndPcmChannelInfo) :
    (assign offset addr i).info = i.info := by
  unfold assign
  split_ifs <;> rfl

theorem assign_of_eq {offset : BitVec 64} (addr : Nat) {i : SndPcmChannelInfo} (h : i.info.offset = offset) :
    (assign offset addr i).addr = addr := by
  unfold assign
  rw [if_pos h]

theorem assign_of_ne {offset : BitVec 64} (addr : Nat) {i : SndPcmChannelInfo} (h : i.info.offset ≠ offset) :
    assign offset addr i = i := if_neg h

theorem shared_size_map (f : SndPcmChannelInfo → SndPcmChannelInfo) (hf : ∀ i, (f i).info = i.info)
    (l : List SndPcmChannelInfo) :
    shared_size psz buffer_size sample_bits (l.map f) = shared_size psz buffer_size sample_bits l := by
  have hextent : ∀ i, extent buffer_size sample_bits (f i) = extent buffer_size sample_bits i := by
    intro i
    unfold extent
    rw [hf]
  cases l with
  | nil => rfl
  | cons i l =>
    show group_size psz buffer_size sample_bits (f i) (l.map f) = group_size psz buffer_size sample_bits i l
    unfold group_size
    simp only [List.foldl_map, hextent]

section Assign

variable {offset : BitVec 64} {addr : Nat}

theorem assign_addr_iff (h : Held psz buffer_size sample_bits others channels maps) (hnew : addr ∉ maps.addrs)
    (haddr : addr ≠ 0) (i : SndPcmChannelInfo) (hi : i ∈ channels) :
    (assign offset addr i).addr = addr ↔ i.info.offset = offset := by
  constructor
  · intro heq
    by_contra hne
    rw [assign_of_ne addr hne] at heq
    exact hnew (heq ▸ h.mem i hi (heq.symm ▸ haddr))
  · exact assign_of_eq addr

theorem assign_addr_other (hfree : ∀ i ∈ channels, i.info.offset = offset → i.addr = 0) (a : Nat) (ha : a ≠ 0)
    (hne : a ≠ addr) (i : SndPcmChannelInfo) (hi : i ∈ channels) :
    (assign offset addr i).addr = a ↔ i.addr = a := by
  by_cases heq : i.info.offset = offset
  · rw [assign_of_eq addr heq, hfree i hi heq]
    exact ⟨fun h => absurd h.symm hne, fun h => absurd h.symm ha⟩
  · rw [assign_of_ne addr heq]

theorem filter_assign_new (h : Held psz buffer_size sample_bits others channels maps) (hnew : addr ∉ maps.addrs)
    (haddr : addr ≠ 0) : (channels.map (assign offset addr)).filter (fun i => i.addr = addr) =
      (channels.filter fun i => i.info.offset = offset).map (assign offset addr) := by
  rw [List.filter_map]
  congr 1
  apply List.filter_congr
  intro i hi
  simp only [Function.comp_apply, decide_eq_decide]
  exact assign_addr_iff h hnew haddr i hi

theorem filter_assign_other (hfree : ∀ i ∈ channels, i.info.offset = offset → i.addr = 0) (a : Nat) (ha : a ≠ 0)
    (hne : a ≠ addr) : (channels.map (assign offset addr)).filter (fun i => i.addr = a) =
      channels.filter fun i => i.addr = a := by
  have hfilter : channels.filter ((fun i => decide (i.addr = a)) ∘ assign offset addr) =
      channels.filter fun i => i.addr = a := by
    apply List.filter_congr
    intro i hi
    simp only [Function.comp_apply, decide_eq_decide]
    exact assign_addr_other hfree a ha hne i hi
  have hkeep : ∀ i ∈ channels.filter fun i => i.addr = a, assign offset addr i = id i := by
    intro i hi
    obtain ⟨hi, heq⟩ := List.mem_filter.mp hi
    apply assign_of_ne
    intro hoffset
    exact ha ((of_decide_eq_true heq).symm.trans (hfree i hi hoffset))
  rw [List.filter_map, hfilter, List.map_congr_left hkeep, List.map_id]

theorem Held.assigned (h : Held psz buffer_size sample_bits others channels maps) (hnew : addr ∉ maps.addrs)
    (haddr : addr ≠ 0) (hfree : ∀ i ∈ channels, i.info.offset = offset → i.addr = 0)
    (hsome : ∃ i ∈ channels, i.info.offset = offset) :
    Held psz buffer_size sample_bits others (channels.map (assign offset addr)) (maps.add addr
      ⟨shared_size psz buffer_size sample_bits (channels.filter fun i => i.info.offset = offset), offset⟩) where
  stray := h.stray
  addrs a := by
    rw [add_addrs, Finset.mem_insert, h.addrs]
    by_cases ha : a = addr
    · obtain ⟨i, hi, hoffset⟩ := hsome
      rw [ha]
      refine ⟨fun _ => Or.inr ⟨haddr, assign offset addr i, List.mem_map_of_mem hi, assign_of_eq addr hoffset⟩, ?_⟩
      exact fun _ => Or.inl rfl
    · have hiff : (a ≠ 0 ∧ ∃ i ∈ channels, i.addr = a) ↔
          a ≠ 0 ∧ ∃ i ∈ channels.map (assign offset addr), i.addr = a := by
        refine and_congr_right fun hne => ?_
        constructor
        · rintro ⟨i, hi, heq⟩
          exact ⟨_, List.mem_map_of_mem hi, (assign_addr_other hfree a hne ha i hi).mpr heq⟩
        · rintro ⟨_, hmem, heq⟩
          obtain ⟨i, hi, rfl⟩ := List.mem_map.mp hmem
          exact ⟨i, hi, (assign_addr_other hfree a hne ha i hi).mp heq⟩
      rw [hiff]
      exact ⟨fun h => h.resolve_left ha, Or.inr⟩
  new := by
    intro _ hmem hne
    obtain ⟨i, hi, rfl⟩ := List.mem_map.mp hmem
    by_cases heq : i.info.offset = offset
    · rw [assign_of_eq addr heq]
      exact fun hmem => hnew ((h.addrs addr).mpr (Or.inl hmem))
    · rw [assign_of_ne addr heq] at hne ⊢
      exact h.new i hi hne
  kept a ha := by
    have hmem : a ∈ maps.addrs := (h.addrs a).mpr (Or.inl ha)
    rw [add_region_of_mem maps addr a _ hnew hmem]
    exact h.kept a ha
  region := by
    intro _ hmem hne
    obtain ⟨i, hi, rfl⟩ := List.mem_map.mp hmem
    by_cases heq : i.info.offset = offset
    · rw [assign_info, assign_of_eq addr heq, add_region_self, filter_assign_new h hnew haddr,
        shared_size_map _ (assign_info offset addr), heq]
    · rw [assign_of_ne addr heq] at hne ⊢
      have hmem := h.mem i hi hne
      have hother : i.addr ≠ addr := fun h => hnew (h ▸ hmem)
      rw [add_region_of_mem maps addr _ _ hnew hmem, filter_assign_other hfree i.addr hne hother]
      exact h.region i hi hne

theorem Grouped.assigned (h : Held psz buffer_size sample_bits others channels maps) (hg : Grouped channels)
    (hnew : addr ∉ maps.addrs) (haddr : addr ≠ 0) : Grouped (channels.map (assign offset addr)) where
  shared := by
    intro _ hmem _ hmem' heq
    obtain ⟨i, hi, rfl⟩ := List.mem_map.mp hmem
    obtain ⟨j, hj, rfl⟩ := List.mem_map.mp hmem'
    rw [assign_info, assign_info] at heq
    by_cases hoffset : i.info.offset = offset
    · rw [assign_of_eq addr hoffset, assign_of_eq addr (heq.symm.trans hoffset)]
    · rw [assign_of_ne addr hoffset, assign_of_ne addr fun h => hoffset (heq.trans h)]
      exact hg.shared i hi j hj heq
  apart := by
    intro _ hmem _ hmem' hne heq
    obtain ⟨i, hi, rfl⟩ := List.mem_map.mp hmem
    obtain ⟨j, hj, rfl⟩ := List.mem_map.mp hmem'
    rw [assign_info, assign_info]
    by_cases hoffset : i.info.offset = offset
    · rw [assign_of_eq addr hoffset] at heq
      exact hoffset.trans ((assign_addr_iff h hnew haddr j hj).mp heq.symm).symm
    · have hoffset' : j.info.offset ≠ offset := by
        intro hj'
        rw [assign_of_eq addr hj'] at heq
        exact hoffset ((assign_addr_iff h hnew haddr i hi).mp heq)
      rw [assign_of_ne addr hoffset] at hne heq
      rw [assign_of_ne addr hoffset'] at heq
      exact hg.apart i hi j hj hne heq

end Assign

end Held

/-- One step of the loop, over all channels: those before `i` have their mappings. -/
theorem share_addr_eq (pre rest : List SndPcmChannelInfo) (i : SndPcmChannelInfo) (addr : Nat)
    (hpre : ∀ j ∈ pre, j.info.offset ≠ i.info.offset) :
    (pre ++ i :: rest).map (assign i.info.offset addr) =
      pre ++ { i with addr } :: share_addr { i with addr } rest := by
  have hkeep : ∀ j ∈ pre, assign i.info.offset addr j = id j := fun j hj => assign_of_ne addr (hpre j hj)
  have hself : assign i.info.offset addr i = { i with addr } := if_pos rfl
  rw [List.map_append, List.map_congr_left hkeep, List.map_id, List.map_cons, hself]
  rfl

theorem map_info_share_addr (i : SndPcmChannelInfo) (rest : List SndPcmChannelInfo) :
    (share_addr i rest).map SndPcmChannelInfo.info = rest.map SndPcmChannelInfo.info := by
  unfold share_addr
  rw [List.map_map]
  apply List.map_congr_left
  intro j _
  rw [Function.comp_apply]
  split_ifs <;> rfl

section Maps

variable {psz : PageSize} {buffer_size : Uframes} {sample_bits : BitVec 32} {others : Space}

/-- What the loop over the channels `rest` leaves, after those of `pre`. -/
structure Maps (psz : PageSize) (buffer_size : Uframes) (sample_bits : BitVec 32) (others : Space)
    (pre rest : List SndPcmChannelInfo)
    (result : Int × List SndPcmChannelInfo × List SndPcmChannelArea × Space) : Prop where
  held : Held psz buffer_size sample_bits others (pre ++ result.2.1) result.2.2.2
  grouped : Grouped (pre ++ result.2.1)
  infos : result.2.1.map SndPcmChannelInfo.info = rest.map SndPcmChannelInfo.info
  done : 0 ≤ result.1 → result.1 = 0 ∧ (∀ i ∈ result.2.1, i.addr ≠ 0) ∧ result.2.2.1 = result.2.1.map area

theorem Maps.cons {pre rest : List SndPcmChannelInfo} {i : SndPcmChannelInfo}
    {result : Int × List SndPcmChannelInfo × List SndPcmChannelArea × Space} (hi : i.addr ≠ 0)
    (h : Maps psz buffer_size sample_bits others (pre ++ [i]) rest result) :
    Maps psz buffer_size sample_bits others pre (i :: rest)
      (result.1, i :: result.2.1, area i :: result.2.2.1, result.2.2.2) where
  held := by
    have hheld := h.held
    rwa [List.append_assoc] at hheld
  grouped := by
    have hgrouped := h.grouped
    rwa [List.append_assoc] at hgrouped
  infos := by rw [List.map_cons, List.map_cons, h.infos]
  done hpos := by
    obtain ⟨hzero, haddrs, hareas⟩ := h.done hpos
    refine ⟨hzero, fun j hj => ?_, by rw [hareas, List.map_cons]⟩
    rcases List.mem_cons.mp hj with rfl | hj
    · exact hi
    · exact haddrs j hj

theorem Maps.of_infos {pre rest rest' : List SndPcmChannelInfo}
    {result : Int × List SndPcmChannelInfo × List SndPcmChannelArea × Space}
    (h : Maps psz buffer_size sample_bits others pre rest result)
    (heq : rest.map SndPcmChannelInfo.info = rest'.map SndPcmChannelInfo.info) :
    Maps psz buffer_size sample_bits others pre rest' result :=
  ⟨h.held, h.grouped, h.infos.trans heq, h.done⟩

theorem mmap_loop_spec (o : AreaAnswers) (n c : Nat) (pre rest : List SndPcmChannelInfo) (maps : Space)
    (hn : rest.length = n) (hpre : ∀ i ∈ pre, i.addr ≠ 0)
    (h : Held psz buffer_size sample_bits others (pre ++ rest) maps) (hg : Grouped (pre ++ rest)) :
    Maps psz buffer_size sample_bits others pre rest (mmap_loop psz buffer_size sample_bits o n c rest maps) := by
  induction n generalizing c pre rest maps with
  | zero =>
    obtain rfl := List.length_eq_zero_iff.mp hn
    exact ⟨h, hg, rfl, fun _ => ⟨rfl, fun i hi => absurd hi List.not_mem_nil, rfl⟩⟩
  | succ n ih =>
    obtain ⟨i, rest, rfl⟩ := List.exists_cons_of_length_eq_add_one hn
    have hrest : rest.length = n := Nat.succ.inj hn
    have hsnoc : ∀ (j : SndPcmChannelInfo) (l : List SndPcmChannelInfo), pre ++ j :: l = (pre ++ [j]) ++ l :=
      fun j l => (List.append_cons pre j l)
    have hpre_snoc : ∀ j : SndPcmChannelInfo, j.addr ≠ 0 → ∀ x ∈ pre ++ [j], x.addr ≠ 0 := by
      intro j hj x hx
      rcases List.mem_append.mp hx with hx | hx
      · exact hpre x hx
      · exact List.mem_singleton.mp hx ▸ hj
    unfold mmap_loop
    by_cases hi : i.addr = 0
    · rw [if_neg (not_not.mpr hi)]
      have hmem : i ∈ pre ++ i :: rest := List.mem_append_right pre List.mem_cons_self
      have hfree : ∀ j ∈ pre ++ i :: rest, j.info.offset = i.info.offset → j.addr = 0 := fun j hj heq =>
        (hg.shared j hj i hmem heq).trans hi
      have hpre_offset : ∀ j ∈ pre, j.info.offset ≠ i.info.offset := fun j hj heq =>
        hpre j hj (hfree j (List.mem_append_left _ hj) heq)
      have hsize : shared_size psz buffer_size sample_bits
          ((pre ++ i :: rest).filter fun j => j.info.offset = i.info.offset) =
            group_size psz buffer_size sample_bits i (rest.filter fun j => j.info.offset = i.info.offset) := by
        have hnil : pre.filter (fun j => decide (j.info.offset = i.info.offset)) = [] := by
          rw [List.filter_eq_nil_iff]
          intro j hj
          simpa using hpre_offset j hj
        rw [List.filter_append, hnil, List.nil_append, List.filter_cons, if_pos (by simp)]
        rfl
      dsimp only
      rw [← hsize]
      cases hmap : Mappings.mmap (o.mmap c) _ maps with
      | error e => exact ⟨h, hg, rfl, fun hpos => absurd (Errno.neg_lt_zero e) (Int.not_lt.mpr hpos)⟩
      | ok result =>
        obtain ⟨addr, maps'⟩ := result
        obtain ⟨hnew, haddr, rfl⟩ := mmap_ok _ _ _ _ _ hmap
        have heq := share_addr_eq pre rest i addr hpre_offset
        have hheld := h.assigned hnew haddr hfree ⟨i, hmem, rfl⟩
        have hgrouped : Grouped ((pre ++ i :: rest).map (assign i.info.offset addr)) := hg.assigned h hnew haddr
        rw [heq, hsnoc] at hheld hgrouped
        have hshare : (share_addr { i with addr } rest).length = n := (List.length_map _).trans hrest
        have hmaps := ih (c + 1) (pre ++ [{ i with addr }]) (share_addr { i with addr } rest) _ hshare
          (hpre_snoc _ haddr) hheld hgrouped
        refine (hmaps.cons haddr).of_infos ?_
        rw [List.map_cons, List.map_cons, map_info_share_addr]
    · rw [if_pos hi]
      have hmaps := ih (c + 1) (pre ++ [i]) rest maps hrest (hpre_snoc i hi) (hsnoc i rest ▸ h) (hsnoc i rest ▸ hg)
      exact hmaps.cons hi

end Maps

/-! ## Sizes -/

def bits (buffer_size : Uframes) (sample_bits : BitVec 32) (info : SndrvPcmChannelInfo) : Nat :=
  info.first.toNat + info.step.toNat * (buffer_size.toNat - 1) + sample_bits.toNat

/-- The arithmetic on the size of a channel does not overflow. -/
def Fits (psz : PageSize) (buffer_size : Uframes) (sample_bits : BitVec 32) (info : SndrvPcmChannelInfo) : Prop :=
  bits buffer_size sample_bits info + 7 < 2 ^ 64 ∧
    (bits buffer_size sample_bits info + 7) / 8 + psz.val.toNat < 2 ^ 64

theorem page_align_ge (psz : PageSize) (size : Uframes) (h : size.toNat + psz.val.toNat < 2 ^ 64) :
    size.toNat ≤ (page_align psz size).toNat := by
  have hpos : 0 < psz.val.toNat := psz.property
  have hmod := Nat.mod_lt size.toNat hpos
  unfold page_align
  dsimp only
  split_ifs
  · have hsum : (size + psz.val).toNat = size.toNat + psz.val.toNat := BitVec.toNat_add_of_lt h
    have hr : (size % psz.val).toNat = size.toNat % psz.val.toNat := BitVec.toNat_umod
    have hle : (size % psz.val).toNat ≤ (size + psz.val).toNat := by omega
    rw [BitVec.toNat_sub_of_le (BitVec.le_def.mpr hle), hsum, hr]
    omega
  · exact Nat.le_refl _

section Sizes

variable (psz : PageSize) (buffer_size : Uframes) (sample_bits : BitVec 32)

theorem extent_toNat (i : SndPcmChannelInfo) (hsize : 1 ≤ buffer_size.toNat)
    (h : bits buffer_size sample_bits i.info < 2 ^ 64) :
    (extent buffer_size sample_bits i).toNat = bits buffer_size sample_bits i.info := by
  unfold bits at h ⊢
  have hlast : (buffer_size - 1#64).toNat = buffer_size.toNat - 1 :=
    BitVec.toNat_sub_of_le (BitVec.le_def.mpr hsize)
  have hstep : (i.info.step.setWidth 64 * (buffer_size - 1#64)).toNat =
      i.info.step.toNat * (buffer_size.toNat - 1) := by
    rw [BitVec.toNat_mul_of_lt, BitVec.toNat_setWidth_of_le (by decide), hlast]
    rw [BitVec.toNat_setWidth_of_le (by decide), hlast]
    omega
  have hfirst : (i.info.first.setWidth 64 + i.info.step.setWidth 64 * (buffer_size - 1#64)).toNat =
      i.info.first.toNat + i.info.step.toNat * (buffer_size.toNat - 1) := by
    rw [BitVec.toNat_add_of_lt, BitVec.toNat_setWidth_of_le (by decide), hstep]
    rw [BitVec.toNat_setWidth_of_le (by decide), hstep]
    omega
  unfold extent
  rw [BitVec.toNat_add_of_lt, BitVec.toNat_setWidth_of_le (by decide), hfirst]
  rw [BitVec.toNat_setWidth_of_le (by decide), hfirst]
  omega

/-- The loop over the sizes ends with the largest of them. -/
theorem widest_spec (size : Uframes) (l : List SndPcmChannelInfo) :
    let widest := l.foldl (fun size i1 =>
      let s := extent buffer_size sample_bits i1
      if s > size then s else size) size
    size ≤ widest ∧ (∀ j ∈ l, extent buffer_size sample_bits j ≤ widest) ∧
      (widest = size ∨ ∃ j ∈ l, widest = extent buffer_size sample_bits j) := by
  induction l generalizing size with
  | nil => exact ⟨BitVec.le_refl _, fun j hj => absurd hj List.not_mem_nil, Or.inl rfl⟩
  | cons i l ih =>
    rw [List.foldl_cons]
    dsimp only at ih ⊢
    by_cases hgt : extent buffer_size sample_bits i > size
    · rw [if_pos hgt]
      obtain ⟨hle, hall, hone⟩ := ih (extent buffer_size sample_bits i)
      refine ⟨BitVec.le_trans (BitVec.le_of_lt hgt) hle, fun j hj => ?_, Or.inr ?_⟩
      · rcases List.mem_cons.mp hj with rfl | hj
        · exact hle
        · exact hall j hj
      · rcases hone with heq | ⟨j, hj, heq⟩
        · exact ⟨i, List.mem_cons_self, heq⟩
        · exact ⟨j, List.mem_cons_of_mem i hj, heq⟩
    · rw [if_neg hgt]
      obtain ⟨hle, hall, hone⟩ := ih size
      refine ⟨hle, fun j hj => ?_, ?_⟩
      · rcases List.mem_cons.mp hj with rfl | hj
        · exact BitVec.le_trans (BitVec.not_lt.mp hgt) hle
        · exact hall j hj
      · rcases hone with heq | ⟨j, hj, heq⟩
        · exact Or.inl heq
        · exact Or.inr ⟨j, List.mem_cons_of_mem i hj, heq⟩

/-- The mapping of a group holds the bits of each of its channels. -/
theorem shared_size_ge (l : List SndPcmChannelInfo) (hsize : 1 ≤ buffer_size.toNat)
    (hfits : ∀ j ∈ l, Fits psz buffer_size sample_bits j.info) (i : SndPcmChannelInfo) (hi : i ∈ l) :
    bits buffer_size sample_bits i.info ≤ 8 * (shared_size psz buffer_size sample_bits l).toNat := by
  cases l with
  | nil => exact absurd hi List.not_mem_nil
  | cons j l =>
    show _ ≤ 8 * (group_size psz buffer_size sample_bits j l).toNat
    unfold group_size
    obtain ⟨hle, hall, hone⟩ := widest_spec buffer_size sample_bits (extent buffer_size sample_bits j) l
    dsimp only at hle hall hone ⊢
    generalize l.foldl _ (extent buffer_size sample_bits j) = widest at hle hall hone ⊢
    obtain ⟨k, hk, heq⟩ : ∃ k ∈ j :: l, widest = extent buffer_size sample_bits k := by
      rcases hone with heq | ⟨k, hk, heq⟩
      · exact ⟨j, List.mem_cons_self, heq⟩
      · exact ⟨k, List.mem_cons_of_mem j hk, heq⟩
    have hwidest : widest.toNat = bits buffer_size sample_bits k.info := by
      have hlt := (hfits k hk).1
      rw [heq, extent_toNat buffer_size sample_bits k hsize (by omega)]
    obtain ⟨hseven, hpage⟩ := hfits k hk
    rw [← hwidest] at hseven hpage
    have hbytes : ((widest + 7#64) / 8#64).toNat = (widest.toNat + 7) / 8 := by
      rw [BitVec.toNat_udiv, BitVec.toNat_add_of_lt hseven]
      rfl
    have hpage' := page_align_ge psz ((widest + 7#64) / 8#64) (hbytes ▸ hpage)
    have hbits : bits buffer_size sample_bits i.info ≤ widest.toNat := by
      have hlt := (hfits i hi).1
      rw [← extent_toNat buffer_size sample_bits i hsize (by omega)]
      rcases List.mem_cons.mp hi with rfl | hi
      · exact hle
      · exact hall i hi
    omega

end Sizes

end Salsa.Pcm.Areas
