import Salsa.Chmap.Query

/-!
# Channel maps as TLVs

How a driver puts its channel maps into a TLV, and that the query gives them back.
-/

namespace Salsa.Chmap.Query

open CInt Ctl
open Tlv (SND_CTL_TLVT_CONTAINER)

/-! ## The encoding -/

inductive MapType where
  | fixed
  | var
  | paired

def MapType.tlvt : MapType → BitVec 32
  | .fixed => SND_CTL_TLVT_CHMAP_FIXED
  | .var => SND_CTL_TLVT_CHMAP_VAR
  | .paired => SND_CTL_TLVT_CHMAP_PAIRED

/-- `enum snd_pcm_chmap_type` -/
def MapType.type : MapType → BitVec 32
  | .fixed => 1#32
  | .var => 2#32
  | .paired => 3#32

structure ChannelMap where
  type : MapType
  pos : List (BitVec 32)

/-- A map as a TLV of its own. -/
def ChannelMap.entry (m : ChannelMap) : List (BitVec 32) :=
  m.type.tlvt :: BitVec.ofNat 32 (4 * m.pos.length) :: m.pos

def payload (maps : List ChannelMap) : List (BitVec 32) := maps.flatMap ChannelMap.entry

def container (maps : List ChannelMap) : List (BitVec 32) :=
  SND_CTL_TLVT_CONTAINER :: BitVec.ofNat 32 (4 * (payload maps).length) :: payload maps

/-- The map as it is handed out, in a block that it fills. -/
def ChannelMap.queried (m : ChannelMap) : SndPcmChmapQuery :=
  { size := 4 * m.pos.length + 8, copied := 4 * m.pos.length, type := m.type.type
    channels := BitVec.ofNat 32 m.pos.length, pos := m.pos }

/-- The array of pointers with its NULL. -/
def terminated (maps : List ChannelMap) : List (Option SndPcmChmapQuery) :=
  (maps.map fun m => some m.queried) ++ [none]

/-! ## Entries in an array -/

/-- The words from `p` on are those of `l`, up to the end. -/
structure TlvArray.Ends (tlv : TlvArray) (p : Nat) (l : List (BitVec 32)) : Prop where
  written : tlv.written = 4 * (p + l.length)
  word : ∀ i < l.length, tlv.word (p + i) = l.getD i 0#32

theorem TlvArray.Ends.skip {tlv : TlvArray} {p : Nat} {l l' : List (BitVec 32)} (h : tlv.Ends p (l ++ l')) :
    tlv.Ends (p + l.length) l' := by
  refine ⟨?_, fun i hi => ?_⟩
  · rw [h.written, List.length_append]
    omega
  · rw [Nat.add_assoc, h.word _ (by rw [List.length_append]; omega), List.getD_append_right _ _ _ _ (by omega)]
    congr 1
    omega

theorem TlvArray.Ends.read {tlv : TlvArray} {p : Nat} {l : List (BitVec 32)} (h : tlv.Ends p l) (i : Nat)
    (hi : i < l.length) : tlv.read (p + i) = .ok (l.getD i 0#32) := by
  rw [read_ok tlv (p + i) (by rw [h.written]; omega), h.word i hi]

theorem entry_length (m : ChannelMap) : m.entry.length = m.pos.length + 2 := rfl

theorem is_chmap_type_tlvt (type : MapType) : is_chmap_type type.tlvt.toInt = true := by
  cases type <;> rfl

theorem payload_cons (m : ChannelMap) (rest : List ChannelMap) : payload (m :: rest) = m.entry ++ payload rest := rfl

section Entry

variable {tlv : TlvArray} {p : Nat} {m : ChannelMap} {rest : List (BitVec 32)} (h : tlv.Ends p (m.entry ++ rest))

include h

theorem read_type : tlv.read p = .ok m.type.tlvt := h.read 0 (Nat.zero_lt_succ _)

theorem read_length : tlv.read (p + 1) = .ok (BitVec.ofNat 32 (4 * m.pos.length)) :=
  h.read 1 (Nat.succ_lt_succ (Nat.zero_lt_succ _))

theorem read_positions : (List.range (4 * m.pos.length / 4)).map (fun k => tlv.word (p + 2 + k)) = m.pos := by
  apply List.ext_getElem
  · simp
  · intro k _ hk
    have hword := h.word (k + 2) (by rw [List.length_append, entry_length]; omega)
    rw [List.getElem_map, List.getElem_range, Nat.add_assoc, Nat.add_comm 2 k, hword]
    change (m.pos ++ rest).getD k 0#32 = m.pos[k]
    rw [List.getD_append _ _ _ _ hk, List.getD_eq_getElem _ _ hk]

end Entry

/-- What the code computes from the length of a map. -/
theorem length_toNat (n : Nat) (h : 4 * n ≤ 1016) : (BitVec.ofNat 32 (4 * n)).toNat = 4 * n := by
  rw [BitVec.toNat_ofNat]
  omega

theorem length_channels (n : Nat) (h : 4 * n ≤ 1016) : BitVec.ofNat 32 (4 * n) / 4#32 = BitVec.ofNat 32 n := by
  apply BitVec.eq_of_toNat_eq
  have hfour : (4#32).toNat = 4 := rfl
  rw [BitVec.toNat_udiv, length_toNat n h, hfour, BitVec.toNat_ofNat]
  omega

theorem length_words (n : Nat) (h : 4 * n ≤ 1016) :
    (BitVec.ofNat 32 (4 * n) / 4#32 + 2#32).toNat = n + 2 := by
  rw [length_channels n h, BitVec.toNat_add, BitVec.toNat_ofNat, BitVec.toNat_ofNat]
  omega

theorem length_bytes (n : Nat) (h : 4 * n ≤ 1016) : (BitVec.ofNat 32 (4 * n) + 8#32).toNat = 4 * n + 8 := by
  rw [BitVec.toNat_add, length_toNat n h, BitVec.toNat_ofNat]
  omega

/-! ## The two loops -/

theorem count_loop_entries (tlv : TlvArray) (maps : List ChannelMap) (fuel p nums : Nat)
    (hends : tlv.Ends p (payload maps)) (hbound : 4 * (payload maps).length ≤ 1016) (hfuel : maps.length < fuel) :
    count_loop tlv fuel p (4 * (payload maps).length : Nat) nums = .ok (some (nums + maps.length)) := by
  induction maps generalizing fuel p nums with
  | nil =>
    obtain ⟨fuel, rfl⟩ : ∃ n, fuel = n + 1 := ⟨fuel - 1, by simp at hfuel; omega⟩
    rfl
  | cons m rest ih =>
    obtain ⟨fuel, rfl⟩ : ∃ n, fuel = n + 1 := ⟨fuel - 1, by simp at hfuel; omega⟩
    rw [payload_cons] at hends hbound ⊢
    rw [List.length_append, entry_length] at hbound ⊢
    unfold count_loop
    rw [if_pos (by omega), read_type hends, ok_bind, is_chmap_type_tlvt, if_neg (by decide), read_length hends, ok_bind]
    dsimp only
    rw [length_bytes _ (by omega), length_words _ (by omega)]
    have hsize : cut ((4 * (m.pos.length + 2 + (payload rest).length) : Nat) - (4 * m.pos.length + 8 : Nat)) =
        (4 * (payload rest).length : Nat) := by
      rw [IsInt.cut ⟨by omega, by omega⟩]
      omega
    have hrest := ih fuel (p + (m.pos.length + 2)) (nums + 1) hends.skip (by omega) (by simpa using hfuel)
    rw [hsize, hrest, List.length_cons]
    congr 2
    omega

theorem copy_loop_entries (tlv : TlvArray) (maps : List ChannelMap) (p : Nat) (done : List (Option SndPcmChmapQuery))
    (hends : tlv.Ends p (payload maps)) (hbound : ∀ m ∈ maps, 4 * m.pos.length ≤ 1016) :
    copy_loop (fun _ => true) tlv maps.length done.length p (done ++ List.replicate (maps.length + 1) none) =
      .ok (some (done ++ terminated maps)) := by
  induction maps generalizing p done with
  | nil => rfl
  | cons m rest ih =>
    have hm := hbound m List.mem_cons_self
    rw [payload_cons] at hends
    rw [List.length_cons]
    unfold copy_loop
    rw [read_length hends, ok_bind, if_neg (by decide), read_type hends, ok_bind, length_toNat _ hm,
      access_ok tlv _ _ (by rw [hends.written, List.length_append, entry_length]; omega), ok_bind]
    dsimp only
    rw [length_bytes _ hm, length_words _ hm, length_channels _ hm]
    have hpos := read_positions hends
    have htype : m.type.tlvt - 0x100#32 = m.type.type := by
      cases m.type <;> rfl
    have hset : (done ++ List.replicate (rest.length + 1 + 1) none).set done.length (some m.queried) =
        (done ++ [some m.queried]) ++ List.replicate (rest.length + 1) none := by
      simp [List.replicate_succ]
    have hrest := ih (p + (m.pos.length + 2)) (done ++ [some m.queried]) hends.skip
      fun m hmem => hbound m (List.mem_cons_of_mem _ hmem)
    rw [List.length_append] at hrest
    rw [hpos, htype]
    change copy_loop _ tlv _ _ _
      ((done ++ List.replicate (rest.length + 1 + 1) none).set done.length (some m.queried)) = _
    rw [hset]
    exact hrest.trans (by simp [terminated])

/-! ## The query -/

def works : Alloc := ⟨true, true, fun _ => true⟩

theorem copy_maps_entries (tlv : TlvArray) (maps : List ChannelMap) (p : Nat) (hends : tlv.Ends p (payload maps))
    (hbound : ∀ m ∈ maps, 4 * m.pos.length ≤ 1016) :
    copy_maps works tlv p maps.length = .ok (some (terminated maps)) :=
  copy_loop_entries tlv maps p [] hends hbound

theorem maps_length_le (maps : List ChannelMap) : 2 * maps.length ≤ (payload maps).length := by
  induction maps with
  | nil => exact Nat.le_refl _
  | cons m rest ih =>
    rw [payload_cons, List.length_append, entry_length, List.length_cons]
    omega

theorem map_length_le (maps : List ChannelMap) (m : ChannelMap) (h : m ∈ maps) :
    m.pos.length ≤ (payload maps).length := by
  induction maps with
  | nil => cases h
  | cons m' rest ih =>
    rw [payload_cons, List.length_append, entry_length]
    rcases List.mem_cons.mp h with rfl | hrest
    · omega
    · have := ih hrest
      omega

theorem container_length (maps : List ChannelMap) : (container maps).length = (payload maps).length + 2 := rfl

theorem container_outer (maps : List ChannelMap) (h : 4 * (payload maps).length ≤ 1016) :
    ((container maps).getD 1 0#32).toNat = 4 * (payload maps).length := length_toNat _ h

theorem query_container (maps : List ChannelMap) (h : 4 * (payload maps).length ≤ 1016) :
    query_tlv works (.ofList (container maps)) = .ok (some (terminated maps)) := by
  have hwritten : (TlvArray.ofList (container maps)).written = 4 * (payload maps).length + 8 :=
    congrArg (· + 8) (container_outer maps h)
  have hends : (TlvArray.ofList (container maps)).Ends 2 (payload maps) := by
    refine ⟨by rw [hwritten]; omega, fun i _ => ?_⟩
    rw [Nat.add_comm]
    rfl
  have hsize : ((TlvArray.ofList (container maps)).word 1).toInt = (4 * (payload maps).length : Nat) := by
    have hone : ((TlvArray.ofList (container maps)).word 1).toNat = 4 * (payload maps).length := container_outer maps h
    rw [BitVec.toInt_eq_toNat_of_lt (by omega), hone]
  have htype : (TlvArray.ofList (container maps)).word 0 = SND_CTL_TLVT_CONTAINER := rfl
  have hcount := maps_length_le maps
  unfold query_tlv
  rw [read_ok _ 0 (by omega), ok_bind, if_neg (not_not_intro htype), read_ok _ 1 (by omega), ok_bind, hsize,
    count_loop_entries _ maps _ 2 0 hends h (by unfold TLV_SIZE; omega), ok_bind, Nat.zero_add]
  refine copy_maps_entries _ maps 2 hends fun m hm => ?_
  have := map_length_le maps m hm
  omega

theorem query_single (m : ChannelMap) (h : 4 * m.pos.length ≤ 1016) :
    query_tlv works (.ofList m.entry) = .ok (some (terminated [m])) := by
  have hwritten : (TlvArray.ofList m.entry).written = 4 * m.pos.length + 8 := congrArg (· + 8) (length_toNat _ h)
  have hends : (TlvArray.ofList m.entry).Ends 0 m.entry := by
    refine ⟨by rw [hwritten, entry_length]; omega, fun i _ => ?_⟩
    rw [Nat.zero_add]
    rfl
  have htype : (TlvArray.ofList m.entry).word 0 = m.type.tlvt := rfl
  have hcontainer : m.type.tlvt ≠ SND_CTL_TLVT_CONTAINER := by
    cases m.type <;> decide
  unfold query_tlv
  rw [read_ok _ 0 (by omega), ok_bind, htype, if_pos hcontainer, is_chmap_type_tlvt, if_neg (not_not_intro rfl)]
  refine copy_maps_entries _ [m] 0 ?_ fun m' hm' => ?_
  · rw [payload_cons]
    simpa [payload] using hends
  · rw [List.mem_singleton.mp hm']
    exact h

/-- The maps that were encoded come back, from a container or from a TLV of their own. -/
theorem query_decodes (ctl_open : CtlOpen) (stack : Nat → BitVec 32) (card : Int) (dev subdev : BitVec 32)
    (stream : Stream) :
    (∀ maps, 4 * (payload maps).length ≤ 1016 → Returns ctl_open card dev subdev stream (container maps) →
      snd_pcm_query_chmaps_from_hw ctl_open works stack card dev subdev stream = .ok (some (terminated maps))) ∧
    ∀ m : ChannelMap, 4 * m.pos.length ≤ 1016 → Returns ctl_open card dev subdev stream m.entry →
      snd_pcm_query_chmaps_from_hw ctl_open works stack card dev subdev stream = .ok (some (terminated [m])) := by
  constructor
  · intro maps hbound hreturns
    have houter := container_outer maps hbound
    rw [query_of_returns ctl_open card dev subdev stream _ hreturns (by rw [container_length]; omega) (by omega)]
    exact query_container maps hbound
  · intro m hbound hreturns
    have houter : (m.entry.getD 1 0#32).toNat = 4 * m.pos.length := length_toNat _ hbound
    rw [query_of_returns ctl_open card dev subdev stream _ hreturns (by rw [entry_length]; omega) (by omega)]
    exact query_single m hbound

def stereo : ChannelMap := ⟨.fixed, [3#32, 4#32]⟩

theorem query_decodes_stereo :
    snd_pcm_query_chmaps_from_hw (handing_out (container [stereo, ⟨.var, []⟩])) works (fun _ => 7#32) 0 0#32 0#32
        .playback =
      .ok (some [some ⟨16, 8, 1#32, 2#32, [3#32, 4#32]⟩, some ⟨8, 0, 2#32, 0#32, []⟩, none]) ∧
    snd_pcm_query_chmaps_from_hw (handing_out stereo.entry) works (fun _ => 7#32) 0 0#32 0#32 .playback =
      .ok (some [some ⟨16, 8, 1#32, 2#32, [3#32, 4#32]⟩, none]) :=
  ⟨(query_decodes _ (fun _ => 7#32) 0 0#32 0#32 .playback).1 [stereo, ⟨.var, []⟩] (by decide)
      (returns_handing_out _ _ _ _ _),
    (query_decodes _ (fun _ => 7#32) 0 0#32 0#32 .playback).2 stereo (by decide) (returns_handing_out _ _ _ _ _)⟩

end Salsa.Chmap.Query
