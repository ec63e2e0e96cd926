import Salsa.Chmap.Encoding

/-!
# Channel maps from arbitrary words

The query trusts the length of each entry: an entry may end behind its container, where nothing
was read to, or a container may have no room for the header of its last entry.
-/

namespace Salsa.Chmap.Query

open CInt Ctl
open Tlv (SND_CTL_TLVT_CONTAINER)

/-! ## What is demanded -/

/-- The words from `start` on, entry by entry, are what the maps say. -/
def Matches (word : Nat → BitVec 32) : Nat → List SndPcmChmapQuery → Prop
  | _, [] => True
  | start, m :: maps =>
    m.type = word start - 0x100#32 ∧ m.channels = word (start + 1) / 4#32 ∧
    m.pos = (List.range m.channels.toNat).map (fun k => word (start + 2 + k)) ∧
    Matches word (start + (word (start + 1)).toNat / 4 + 2) maps

/-- NULL, or an array with blocks that hold what was copied to them, and the maps of the TLV. -/
def Sound (word : Nat → BitVec 32) (result : Option (List (Option SndPcmChmapQuery))) : Prop :=
  ∀ array, result = some array → ∃ maps : List SndPcmChmapQuery,
    array = maps.map some ++ [none] ∧ (∀ m ∈ maps, 8 + m.copied ≤ m.size) ∧
    Matches word (if word 0 = SND_CTL_TLVT_CONTAINER then 2 else 0) maps

/-- With any allocations and anything in the array before, the query ends without an access outside
of the TLV that was read, and its result is sound. -/
def QueriesSafely (ctl_open : CtlOpen) (card : Int) (dev subdev : BitVec 32) (stream : Stream)
    (content : List (BitVec 32)) : Prop :=
  ∀ alloc stack, ∃ result,
    snd_pcm_query_chmaps_from_hw ctl_open alloc stack card dev subdev stream = .ok result ∧
    Sound (fun i => content.getD i 0#32) result

/-! ## Containers with room for their entries -/

/-- The bytes behind the header of the entry at `p`. -/
def TlvArray.length (tlv : TlvArray) (p : Nat) : Nat := (tlv.word (p + 1)).toNat

def TlvArray.isMap (tlv : TlvArray) (p : Nat) : Bool := is_chmap_type (tlv.word p).toInt

/-- The next entry starts at the next whole word. -/
def TlvArray.next (tlv : TlvArray) (p : Nat) : Nat := p + tlv.length p / 4 + 2

/-- There is room for the entries from `p` on, of which `size` bytes are to come: for the header
and the data of each map, and for the type of the first entry that is none. -/
inductive Room (tlv : TlvArray) : Nat → Int → Prop
  | done (p : Nat) (size : Int) (hsize : size ≤ 0) : Room tlv p size
  | other (p : Nat) (size : Int) (hsize : 0 < size) (htype : 4 * p + 4 ≤ tlv.written) (hmap : tlv.isMap p = false) :
      Room tlv p size
  | map (p : Nat) (size : Int) (hsize : 0 < size) (hmap : tlv.isMap p = true)
      (hfits : 4 * p + 8 + tlv.length p ≤ tlv.written) (hrest : Room tlv (tlv.next p) (size - (tlv.length p + 8))) :
      Room tlv p size

/-- A TLV whose entries have room if it is a container. -/
def HasRoom (content : List (BitVec 32)) : Prop :=
  let tlv := TlvArray.ofList content
  tlv.word 0 = SND_CTL_TLVT_CONTAINER → Room tlv 2 (tlv.length 0)

/-! ## Entries -/

/-- The `n` entries from `p` on end in what was read. -/
def Inside (tlv : TlvArray) : Nat → Nat → Prop
  | 0, _ => True
  | n + 1, p => 4 * p + 8 + tlv.length p ≤ tlv.written ∧ Inside tlv n (tlv.next p)

theorem next_eq (tlv : TlvArray) (p : Nat) : p + (tlv.word (p + 1) / 4#32 + 2#32).toNat = tlv.next p := by
  have hfour : (4#32).toNat = 4 := rfl
  have htwo : (2#32).toNat = 2 := rfl
  unfold TlvArray.next TlvArray.length
  rw [BitVec.toNat_add, BitVec.toNat_udiv, hfour, htwo]
  omega

theorem size_eq (tlv : TlvArray) (p : Nat) (h : tlv.length p < 4294967288) :
    (tlv.word (p + 1) + 8#32).toNat = tlv.length p + 8 := by
  have height : (8#32).toNat = 8 := rfl
  unfold TlvArray.length at h ⊢
  rw [BitVec.toNat_add, height]
  omega

section Loops

variable (tlv : TlvArray)

/-- A round of the loop that counts. -/
theorem count_loop_succ (fuel p : Nat) (size : Int) (nums : Nat) (hsize : 0 < size) :
    count_loop tlv (fuel + 1) p size nums =
      (tlv.read p >>= fun _ =>
        if tlv.isMap p = false then .ok none
        else
          tlv.read (p + 1) >>= fun length =>
            count_loop tlv fuel (tlv.next p) (cut (size - (length + 8#32).toNat)) (nums + 1)) := by
  rw [count_loop, if_pos hsize]
  cases htype : tlv.read p with
  | error fault => rfl
  | ok type =>
    obtain ⟨-, rfl⟩ := of_read_ok tlv p type htype
    rw [ok_bind, ok_bind]
    cases hmap : is_chmap_type (tlv.word p).toInt with
    | false => simp [TlvArray.isMap, hmap, pure, Except.pure]
    | true =>
      rw [if_neg (not_not_intro rfl), if_neg (by simp [TlvArray.isMap, hmap])]
      cases hlength : tlv.read (p + 1) with
      | error fault => rfl
      | ok length =>
        obtain ⟨-, rfl⟩ := of_read_ok tlv (p + 1) length hlength
        rw [ok_bind, ok_bind, next_eq]

theorem count_loop_room (p : Nat) (size : Int) (hroom : Room tlv p size) (fuel nums : Nat) (hsize : size ≤ 1016)
    (hp : 4 * p ≤ tlv.written) (hwritten : tlv.written ≤ 1024) (hfuel : tlv.written < 4 * p + 8 * fuel) :
    ∃ r, count_loop tlv fuel p size nums = .ok r ∧ ∀ m, r = some m → ∃ n, m = nums + n ∧ Inside tlv n p := by
  induction hroom generalizing fuel nums with
  | done p size hdone =>
    obtain ⟨fuel, rfl⟩ : ∃ n, fuel = n + 1 := ⟨fuel - 1, by omega⟩
    refine ⟨some nums, ?_, ?_⟩
    · rw [count_loop, if_neg (by omega)]
      rfl
    · rintro m ⟨⟩
      exact ⟨0, rfl, trivial⟩
  | other p size hpos htype hmap =>
    obtain ⟨fuel, rfl⟩ : ∃ n, fuel = n + 1 := ⟨fuel - 1, by omega⟩
    refine ⟨none, ?_, fun m hm => by cases hm⟩
    rw [count_loop_succ tlv fuel p size nums hpos, read_ok tlv p htype, ok_bind, if_pos hmap]
  | map p size hpos hmap hfits _ ih =>
    obtain ⟨fuel, rfl⟩ : ∃ n, fuel = n + 1 := ⟨fuel - 1, by omega⟩
    have hnext : 4 * p + 8 ≤ 4 * tlv.next p ∧ 4 * tlv.next p ≤ tlv.written := by
      unfold TlvArray.next
      omega
    obtain ⟨r, hr, hinside⟩ := ih fuel (nums + 1) (by omega) (by omega) (by omega)
    refine ⟨r, ?_, fun m hm => ?_⟩
    · rw [count_loop_succ tlv fuel p size nums hpos, read_ok tlv p (by omega), ok_bind, if_neg (by simp [hmap]),
        read_ok tlv (p + 1) (by omega), ok_bind, size_eq tlv p (by omega), IsInt.cut ⟨by omega, by omega⟩]
      exact hr
    · obtain ⟨n, rfl, hn⟩ := hinside m hm
      exact ⟨n + 1, by omega, hfits, hn⟩

theorem copy_loop_inside (alloc : Nat → Bool) (n p : Nat) (h : Inside tlv n p) (hwritten : tlv.written ≤ 1024)
    (done : List (Option SndPcmChmapQuery)) :
    ∃ r, copy_loop alloc tlv n done.length p (done ++ List.replicate (n + 1) none) = .ok r ∧
      ∀ array, r = some array → ∃ maps : List SndPcmChmapQuery,
        array = done ++ (maps.map some ++ [none]) ∧ (∀ m ∈ maps, 8 + m.copied ≤ m.size) ∧
        Matches tlv.word p maps := by
  induction n generalizing p done with
  | zero =>
    refine ⟨_, rfl, ?_⟩
    rintro array ⟨⟩
    exact ⟨[], rfl, fun m hm => by simp at hm, trivial⟩
  | succ n ih =>
    obtain ⟨hfits, hrest⟩ := h
    rw [copy_loop, read_ok tlv (p + 1) (by omega), ok_bind]
    split
    · exact ⟨none, rfl, fun array harray => by cases harray⟩
    · rw [read_ok tlv p (by omega), ok_bind, access_ok tlv _ _ (by unfold TlvArray.length at hfits; omega), ok_bind]
      dsimp only
      rw [size_eq tlv p (by omega), next_eq]
      generalize hentry : SndPcmChmapQuery.mk (tlv.length p + 8) (tlv.word (p + 1)).toNat _ _ _ = entry
      have hset : (done ++ List.replicate (n + 1 + 1) none).set done.length (some entry) =
          (done ++ [some entry]) ++ List.replicate (n + 1) none := by
        simp [List.replicate_succ]
      obtain ⟨r, hr, hsound⟩ := ih (tlv.next p) hrest (done ++ [some entry])
      rw [List.length_append] at hr
      refine ⟨r, by rw [hset]; exact hr, fun array harray => ?_⟩
      obtain ⟨maps, heq, hsizes, hmatches⟩ := hsound array harray
      refine ⟨entry :: maps, by rw [heq]; simp, fun m hm => ?_, ?_⟩
      · rcases List.mem_cons.mp hm with rfl | hm
        · rw [← hentry]
          unfold TlvArray.length
          dsimp only
          omega
        · exact hsizes m hm
      · have hfour : (4#32).toNat = 4 := rfl
        rw [← hentry]
        refine ⟨rfl, rfl, ?_, ?_⟩
        · dsimp only
          rw [BitVec.toNat_udiv, hfour]
        · exact hmatches

theorem inside_of_copy (n i p : Nat) (map : List (Option SndPcmChmapQuery))
    (r : Option (List (Option SndPcmChmapQuery))) (h : copy_loop (fun _ => true) tlv n i p map = .ok r) :
    Inside tlv n p := by
  induction n generalizing i p map with
  | zero => trivial
  | succ n ih =>
    rw [copy_loop] at h
    obtain ⟨length, hlength, h⟩ := (bind_eq_ok _ _ _).mp h
    obtain ⟨-, rfl⟩ := of_read_ok tlv (p + 1) length hlength
    rw [if_neg (by decide)] at h
    obtain ⟨type, htype, h⟩ := (bind_eq_ok _ _ _).mp h
    obtain ⟨_, haccess, h⟩ := (bind_eq_ok _ _ _).mp h
    have hbytes := of_access_ok tlv _ _ haccess
    rw [next_eq] at h
    exact ⟨by unfold TlvArray.length; omega, ih _ _ _ h⟩

/-- A container is left for an entry that is no map with `size` above 0 only. -/
theorem read_of_count_none (fuel p : Nat) (size : Int) (nums : Nat)
    (h : count_loop tlv fuel p size nums = .ok none) : 4 * p + 4 ≤ tlv.written := by
  cases fuel with
  | zero => cases h
  | succ fuel =>
    by_cases hpos : 0 < size
    · rw [count_loop_succ tlv fuel p size nums hpos] at h
      obtain ⟨type, htype, -⟩ := (bind_eq_ok _ _ _).mp h
      exact (of_read_ok tlv p type htype).1
    · rw [count_loop, if_neg (by omega)] at h
      cases h

theorem le_of_count_some (fuel p : Nat) (size : Int) (nums m : Nat)
    (h : count_loop tlv fuel p size nums = .ok (some m)) : nums ≤ m := by
  induction fuel generalizing p size nums with
  | zero => cases h
  | succ fuel ih =>
    by_cases hpos : 0 < size
    · rw [count_loop_succ tlv fuel p size nums hpos] at h
      obtain ⟨type, -, h⟩ := (bind_eq_ok _ _ _).mp h
      split at h
      · cases h
      · obtain ⟨length, -, h⟩ := (bind_eq_ok _ _ _).mp h
        exact Nat.le_of_succ_le (ih _ _ _ h)
    · rw [count_loop, if_neg (by omega)] at h
      cases h
      exact Nat.le_refl _

theorem room_of_count (fuel p : Nat) (size : Int) (nums : Nat) (r : Option Nat) (hsize : size ≤ 1016)
    (hwritten : tlv.written ≤ 1024) (hcount : count_loop tlv fuel p size nums = .ok r)
    (hinside : ∀ m, r = some m → Inside tlv (m - nums) p) : Room tlv p size := by
  induction fuel generalizing p size nums with
  | zero => cases hcount
  | succ fuel ih =>
    by_cases hpos : 0 < size
    · rw [count_loop_succ tlv fuel p size nums hpos] at hcount
      obtain ⟨type, htype, hcount⟩ := (bind_eq_ok _ _ _).mp hcount
      obtain ⟨hread, -⟩ := of_read_ok tlv p type htype
      cases hmap : tlv.isMap p with
      | false => exact .other p size hpos hread hmap
      | true =>
        rw [if_neg (by simp [hmap])] at hcount
        obtain ⟨length, hlength, hcount⟩ := (bind_eq_ok _ _ _).mp hcount
        obtain ⟨-, rfl⟩ := of_read_ok tlv (p + 1) length hlength
        have hfits : 4 * p + 8 + tlv.length p ≤ tlv.written := by
          cases r with
          | none =>
            -- The loop went on to the next entry, which is behind this one.
            have hnext := read_of_count_none tlv fuel _ _ _ hcount
            unfold TlvArray.next at hnext
            omega
          | some m =>
            have hle := le_of_count_some tlv fuel _ _ _ m hcount
            have hm := hinside m rfl
            rw [show m - nums = m - (nums + 1) + 1 by omega] at hm
            exact hm.1
        rw [size_eq tlv p (by omega), IsInt.cut ⟨by omega, by omega⟩] at hcount
        refine .map p size hpos hmap hfits (ih _ _ (nums + 1) (by omega) hcount fun m hm => ?_)
        have hle := le_of_count_some tlv fuel _ _ _ m (hm ▸ hcount)
        have hm := hinside m hm
        rw [show m - nums = m - (nums + 1) + 1 by omega] at hm
        exact hm.2
    · exact .done p size (by omega)

end Loops

/-! ## The query -/

theorem copy_maps_inside (alloc : Alloc) (tlv : TlvArray) (start n : Nat) (h : Inside tlv n start)
    (hwritten : tlv.written ≤ 1024) (hstart : start = if tlv.word 0 = SND_CTL_TLVT_CONTAINER then 2 else 0) :
    ∃ result, copy_maps alloc tlv start n = .ok result ∧ Sound tlv.word result := by
  unfold copy_maps
  split
  · exact ⟨none, rfl, fun array harray => by cases harray⟩
  · obtain ⟨r, hr, hsound⟩ := copy_loop_inside tlv alloc.entry n start h hwritten []
    refine ⟨r, hr, fun array harray => ?_⟩
    rw [← hstart]
    exact hsound array harray

/-- The payload of the outer TLV as the counter of the loop. -/
theorem outer_toInt (content : List (BitVec 32)) (houter : (content.getD 1 0#32).toNat ≤ 1016) :
    ((TlvArray.ofList content).word 1).toInt = (TlvArray.ofList content).length 0 := by
  apply BitVec.toInt_eq_toNat_of_lt
  have hone : ((TlvArray.ofList content).word 1).toNat = (content.getD 1 0#32).toNat := rfl
  omega

theorem query_of_room (alloc : Alloc) (content : List (BitVec 32)) (houter : (content.getD 1 0#32).toNat ≤ 1016)
    (h : HasRoom content) :
    ∃ result, query_tlv alloc (.ofList content) = .ok result ∧ Sound (fun i => content.getD i 0#32) result := by
  have hwritten : (TlvArray.ofList content).written = (content.getD 1 0#32).toNat + 8 := rfl
  have hlength : (TlvArray.ofList content).length 0 = (content.getD 1 0#32).toNat := rfl
  unfold query_tlv
  rw [read_ok _ 0 (by omega), ok_bind]
  split
  · rename_i hcontainer
    split
    · exact ⟨none, rfl, fun array harray => by cases harray⟩
    · exact copy_maps_inside alloc _ 0 1 ⟨by omega, trivial⟩ (by omega) (if_neg hcontainer).symm
  · rename_i hcontainer
    rw [not_not] at hcontainer
    obtain ⟨r, hr, hinside⟩ := count_loop_room _ 2 _ (h hcontainer) (TLV_SIZE + 1) 0 (by omega) (by omega) (by omega)
      (by unfold TLV_SIZE; omega)
    rw [read_ok _ 1 (by omega), ok_bind, outer_toInt content houter, hr, ok_bind]
    cases r with
    | none => exact ⟨none, rfl, fun array harray => by cases harray⟩
    | some m =>
      obtain ⟨n, rfl, hn⟩ := hinside m rfl
      rw [Nat.zero_add]
      exact copy_maps_inside alloc _ 2 n hn (by omega) (if_pos hcontainer).symm

theorem room_of_query (content : List (BitVec 32)) (houter : (content.getD 1 0#32).toNat ≤ 1016)
    (result : Option (List (Option SndPcmChmapQuery))) (h : query_tlv works (.ofList content) = .ok result) :
    HasRoom content := by
  intro hcontainer
  have hlength : (TlvArray.ofList content).length 0 = (content.getD 1 0#32).toNat := rfl
  have hwritten : (TlvArray.ofList content).written = (content.getD 1 0#32).toNat + 8 := rfl
  unfold query_tlv at h
  rw [read_ok _ 0 (by omega), ok_bind, if_neg (not_not_intro hcontainer), read_ok _ 1 (by omega), ok_bind,
    outer_toInt content houter] at h
  obtain ⟨r, hr, h⟩ := (bind_eq_ok _ _ _).mp h
  refine room_of_count _ _ 2 _ 0 r (by omega) (by omega) hr fun m hm => ?_
  rw [hm] at h
  exact inside_of_copy _ m 0 2 _ result h

/-- The query is safe exactly for the TLVs whose entries have room. -/
theorem queries_safely_iff (ctl_open : CtlOpen) (card : Int) (dev subdev : BitVec 32) (stream : Stream)
    (content : List (BitVec 32)) (h : Returns ctl_open card dev subdev stream content)
    (hlength : content.length = TLV_SIZE) (houter : (content.getD 1 0#32).toNat ≤ 1016) :
    QueriesSafely ctl_open card dev subdev stream content ↔ HasRoom content := by
  have hquery := query_of_returns ctl_open card dev subdev stream content h
    (by rw [hlength]; unfold TLV_SIZE; omega) houter
  constructor
  · intro hsafe
    obtain ⟨result, hresult, -⟩ := hsafe works fun _ => 0#32
    rw [hquery] at hresult
    exact room_of_query content houter result hresult
  · intro hroom alloc stack
    rw [hquery]
    cases alloc.xtlv with
    | false => exact ⟨none, rfl, fun array harray => by cases harray⟩
    | true => exact query_of_room alloc content houter hroom

/-- A TLV with zeros behind it. -/
def padded (words : List (BitVec 32)) : List (BitVec 32) := words ++ List.replicate (TLV_SIZE - words.length) 0#32

theorem padded_length (words : List (BitVec 32)) (h : words.length ≤ TLV_SIZE) : (padded words).length = TLV_SIZE := by
  unfold padded
  rw [List.length_append, List.length_replicate]
  omega

/-- A container with two maps. The length of the second is not one of whole words. -/
def two_maps : List (BitVec 32) :=
  padded [SND_CTL_TLVT_CONTAINER, 29#32, SND_CTL_TLVT_CHMAP_FIXED, 8#32, 3#32, 4#32, SND_CTL_TLVT_CHMAP_VAR, 5#32,
    7#32]

theorem two_maps_room : HasRoom two_maps := by
  intro _
  show Room (.ofList two_maps) 2 29
  refine .map 2 29 (by decide) (by decide) (by decide) ?_
  exact .map 6 13 (by decide) (by decide) (by decide) (.done 9 0 (by decide))

theorem queries_safely_iff_two_maps : QueriesSafely (handing_out two_maps) 0 0#32 0#32 .playback two_maps :=
  (queries_safely_iff _ 0 0#32 0#32 .playback two_maps (returns_handing_out _ _ _ _ _) (padded_length _ (by decide))
    (by decide)).mpr two_maps_room

/-- A container of 8 bytes with the header of a map. The channel that it is said to have is behind. -/
def header_only : List (BitVec 32) := padded [SND_CTL_TLVT_CONTAINER, 8#32, SND_CTL_TLVT_CHMAP_FIXED, 4#32]

theorem header_only_has_no_room : ¬ HasRoom header_only := by
  intro h
  cases h rfl with
  | done _ _ hsize => exact absurd hsize (by decide)
  | other _ _ _ _ hmap => exact absurd hmap (by decide)
  | map _ _ _ _ hfits => exact absurd hfits (by decide)

theorem map_behind_container : ¬ ∀ ctl_open card dev subdev stream content,
    Returns ctl_open card dev subdev stream content → content.length = TLV_SIZE →
      (content.getD 1 0#32).toNat ≤ 1016 → QueriesSafely ctl_open card dev subdev stream content := by
  intro h
  have hlength : header_only.length = TLV_SIZE := padded_length _ (by decide)
  have hsafe := h (handing_out header_only) 0 0#32 0#32 .playback header_only (returns_handing_out _ _ _ _ _)
    hlength (by decide)
  obtain ⟨result, hresult, -⟩ := hsafe works fun _ => 0#32
  rw [query_of_returns _ 0 0#32 0#32 .playback _ (returns_handing_out _ _ _ _ _) (by rw [hlength]; decide) (by decide)]
    at hresult
  exact header_only_has_no_room (room_of_query _ (by decide) result hresult)

end Salsa.Chmap.Query
