import Mathlib.Data.List.GetD
import Salsa.Tlv.Info

/-!
# Channel maps of a control

`snd_pcm_query_chmaps_from_hw` of `pcm.c`: the TLV of a control is read into a local array, and
its maps are copied from there, one block for each.
-/

namespace Salsa.Chmap.Query

open CInt Ctl
open Tlv (SndCtl SND_CTL_TLVT_CONTAINER snd_ctl_elem_tlv_read)

def SND_CTL_TLVT_CHMAP_FIXED : BitVec 32 := 0x101#32
def SND_CTL_TLVT_CHMAP_VAR : BitVec 32 := 0x102#32
def SND_CTL_TLVT_CHMAP_PAIRED : BitVec 32 := 0x103#32

def SND_CTL_ELEM_IFACE_PCM : BitVec 32 := 3#32

/-- `snd_pcm_stream_t` -/
inductive Stream where
  | playback
  | capture
deriving DecidableEq

/-- `snd_pcm_chmap_query_t`, in a block of `size` bytes. Behind `type` and `channels`, `copied` bytes
were written to it, of which `pos` has the whole words. -/
structure SndPcmChmapQuery where
  size : Nat
  copied : Nat
  type : BitVec 32
  channels : BitVec 32
  pos : List (BitVec 32)
deriving DecidableEq

/-! ## The TLV -/

def TLV_SIZE : Nat := 256

/-- The array `tlv`, whose first `written` bytes were set. -/
structure TlvArray where
  word : Nat → BitVec 32
  written : Nat

/-- An access to `n` bytes from byte `ofs` on. -/
def TlvArray.access (tlv : TlvArray) (ofs n : Nat) : C Unit :=
  if ofs + n ≤ tlv.written then .ok ()
  else if ofs + n ≤ 4 * TLV_SIZE then .error .uninitialized
  else .error .read

def TlvArray.read (tlv : TlvArray) (i : Nat) : C (BitVec 32) := do
  tlv.access (4 * i) 4
  return tlv.word i

/-- What opens the control device of a card. -/
abbrev CtlOpen := Int → Except Errno SndCtl

def chmap_id (dev subdev : BitVec 32) (stream : Stream) : SndCtlElemId :=
  let name :=
    match stream with
    | .playback => "Playback Channel Map".toList
    | .capture => "Capture Channel Map".toList
  { zeroed_id with iface := SND_CTL_ELEM_IFACE_PCM, device := dev, index := subdev, name }

def do_ctl_chmap {α : Type} (ctl_open : CtlOpen) (card : Int) (dev subdev : BitVec 32) (stream : Stream)
    (func : SndCtl → SndCtlElemId → α → Int × α) (arg : α) : Int × α :=
  match ctl_open card with
  | .error errno => (errno.neg, arg)
  | .ok ctl =>
    let (ret, arg) := func ctl (chmap_id dev subdev stream) arg
    if ret < 0 then (ret, arg) else (0, arg)

def do_read_tlv (alloc : Bool) (ctl : SndCtl) (id : SndCtlElemId) (tlv : Words) : Int × Words :=
  snd_ctl_elem_tlv_read ctl alloc id tlv (BitVec.ofNat 32 (TLV_SIZE * 4))

def is_chmap_type (type : Int) : Bool :=
  type ≥ SND_CTL_TLVT_CHMAP_FIXED.toInt ∧ type ≤ SND_CTL_TLVT_CHMAP_PAIRED.toInt

/-! ## The maps -/

/-- The loop that counts the entries of a container; `size` is an `int`. -/
def count_loop (tlv : TlvArray) : Nat → Nat → Int → Nat → C (Option Nat)
  | 0, _, _, _ => .error .diverge
  | fuel + 1, p, size, nums =>
    if size > 0 then do
      let type ← tlv.read p
      if ¬ is_chmap_type type.toInt then return none
      else
        let length ← tlv.read (p + 1)
        -- The product of signed and unsigned is unsigned, and becomes an `int` again.
        let size := cut (size - (length + 8#32).toNat)
        count_loop tlv fuel (p + (length / 4#32 + 2#32).toNat) size (nums + 1)
    else return some nums

/-- Whether the allocations under `snd_pcm_query_chmaps_from_hw` work. -/
structure Alloc where
  xtlv : Bool
  map : Bool
  entry : Nat → Bool

/-- The loop that copies `n` maps from map `i` on. Without memory for one, all are freed. -/
def copy_loop (alloc : Nat → Bool) (tlv : TlvArray) :
    Nat → Nat → Nat → List (Option SndPcmChmapQuery) → C (Option (List (Option SndPcmChmapQuery)))
  | 0, _, _, map => return some map
  | n + 1, i, start, map => do
    let length ← tlv.read (start + 1)
    if ¬ alloc i then return none
    else
      let type ← tlv.read start
      tlv.access (4 * (start + 2)) length.toNat
      let entry : SndPcmChmapQuery :=
        { size := (length + 8#32).toNat, copied := length.toNat, type := type - 0x100#32
          channels := length / 4#32
          pos := (List.range (length.toNat / 4)).map fun k => tlv.word (start + 2 + k) }
      copy_loop alloc tlv n (i + 1) (start + (length / 4#32 + 2#32).toNat) (map.set i (some entry))

/-- The array with its NULL at the end, filled from the word `start` on. -/
def copy_maps (alloc : Alloc) (tlv : TlvArray) (start nums : Nat) :
    C (Option (List (Option SndPcmChmapQuery))) :=
  if ¬ alloc.map then return none
  else copy_loop alloc.entry tlv nums 0 start (List.replicate (nums + 1) none)

/-- `snd_pcm_query_chmaps_from_hw` behind the reading of the TLV. -/
def query_tlv (alloc : Alloc) (tlv : TlvArray) : C (Option (List (Option SndPcmChmapQuery))) := do
  let type ← tlv.read 0
  if type ≠ SND_CTL_TLVT_CONTAINER then
    if ¬ is_chmap_type type.toInt then return none else copy_maps alloc tlv 0 1
  else
    let size ← tlv.read 1
    match ← count_loop tlv (TLV_SIZE + 1) 2 size.toInt 0 with
    | none => return none
    | some nums => copy_maps alloc tlv 2 nums

/-- NULL or the array of maps; `stack` is what `tlv` happens to hold. -/
def snd_pcm_query_chmaps_from_hw (ctl_open : CtlOpen) (alloc : Alloc) (stack : Nat → BitVec 32) (card : Int)
    (dev subdev : BitVec 32) (stream : Stream) : C (Option (List (Option SndPcmChmapQuery))) :=
  let (err, tlv) := do_ctl_chmap ctl_open card dev subdev stream (do_read_tlv alloc.xtlv) ⟨TLV_SIZE, stack⟩
  if err < 0 then return none
  else query_tlv alloc ⟨tlv.word, (tlv.word 1).toNat + 8⟩

/-! ## What the driver returns -/

/-- The driver knows the maps of the stream, and hands out `content`. -/
def Returns (ctl_open : CtlOpen) (card : Int) (dev subdev : BitVec 32) (stream : Stream)
    (content : List (BitVec 32)) : Prop :=
  ∃ ctl info, ctl_open card = .ok ctl ∧ SNDRV_PROTOCOL_VERSION 2 0 4 ≤ ctl.protocol ∧
    ctl.elem_info (chmap_id dev subdev stream) = (0, info) ∧ info.id.numid ≠ 0#32 ∧
    ∀ buf, ∃ xtlv, ctl.tlv_read info.id.numid buf = (0, xtlv) ∧
      ∀ i < content.length, xtlv.word i = content.getD i 0#32

/-- An array that the content was read into. -/
def TlvArray.ofList (content : List (BitVec 32)) : TlvArray :=
  ⟨fun i => content.getD i 0#32, (content.getD 1 0#32).toNat + 8⟩

/-- Arrays with the same words as far as they were set. -/
structure TlvArray.Agree (a b : TlvArray) : Prop where
  written : a.written = b.written
  word : ∀ i, 4 * i + 4 ≤ a.written → a.word i = b.word i

theorem TlvArray.Agree.access {a b : TlvArray} (h : a.Agree b) (ofs n : Nat) : a.access ofs n = b.access ofs n := by
  unfold TlvArray.access
  rw [h.written]

theorem access_ok (tlv : TlvArray) (ofs n : Nat) (h : ofs + n ≤ tlv.written) : tlv.access ofs n = .ok () := if_pos h

theorem of_access_ok (tlv : TlvArray) (ofs n : Nat) (h : tlv.access ofs n = .ok ()) : ofs + n ≤ tlv.written := by
  unfold TlvArray.access at h
  split at h
  · assumption
  · split at h <;> cases h

theorem read_ok (tlv : TlvArray) (i : Nat) (h : 4 * i + 4 ≤ tlv.written) : tlv.read i = .ok (tlv.word i) := by
  unfold TlvArray.read
  rw [access_ok tlv _ _ h]
  rfl

theorem of_read_ok (tlv : TlvArray) (i : Nat) (v : BitVec 32) (h : tlv.read i = .ok v) :
    4 * i + 4 ≤ tlv.written ∧ v = tlv.word i := by
  unfold TlvArray.read at h
  obtain ⟨_, haccess, hv⟩ := (bind_eq_ok _ _ _).mp h
  exact ⟨of_access_ok tlv _ _ haccess, (Except.ok.inj hv).symm⟩

theorem TlvArray.Agree.read {a b : TlvArray} (h : a.Agree b) (i : Nat) : a.read i = b.read i := by
  by_cases hi : 4 * i + 4 ≤ a.written
  · rw [read_ok a i hi, read_ok b i (h.written ▸ hi), h.word i hi]
  · unfold TlvArray.read
    rw [h.access]
    cases hr : b.access (4 * i) 4 with
    | error fault => rfl
    | ok u =>
      rw [← h.access] at hr
      exact absurd (of_access_ok a _ _ hr) hi

theorem count_loop_congr {a b : TlvArray} (h : a.Agree b) (fuel p : Nat) (size : Int) (nums : Nat) :
    count_loop a fuel p size nums = count_loop b fuel p size nums := by
  induction fuel generalizing p size nums with
  | zero => rfl
  | succ fuel ih =>
    unfold count_loop
    simp only [h.read, ih]

theorem copy_loop_congr {a b : TlvArray} (h : a.Agree b) (alloc : Nat → Bool) (n i start : Nat)
    (map : List (Option SndPcmChmapQuery)) : copy_loop alloc a n i start map = copy_loop alloc b n i start map := by
  induction n generalizing i start map with
  | zero => rfl
  | succ n ih =>
    unfold copy_loop
    rw [h.read, h.read]
    congr 1
    funext length
    congr 1
    congr 1
    funext type
    rw [h.access]
    cases haccess : b.access (4 * (start + 2)) length.toNat with
    | error fault => rfl
    | ok u =>
      have hpos : (List.range (length.toNat / 4)).map (fun k => a.word (start + 2 + k)) =
          (List.range (length.toNat / 4)).map fun k => b.word (start + 2 + k) := by
        apply List.map_congr_left
        intro k hk
        have hbytes := of_access_ok b _ _ haccess
        rw [List.mem_range] at hk
        exact h.word _ (by rw [h.written]; omega)
      rw [hpos, ok_bind, ok_bind, ih]

theorem query_tlv_congr {a b : TlvArray} (h : a.Agree b) (alloc : Alloc) : query_tlv alloc a = query_tlv alloc b := by
  unfold query_tlv copy_maps
  simp only [h.read, count_loop_congr h, copy_loop_congr h]

theorem memcpy_word (dst src : Words) (n i : Nat) (h : 4 * i + 4 ≤ n) :
    (Tlv.memcpy dst src n).word i = src.word i := by
  unfold Tlv.memcpy
  exact if_pos h

/-- A TLV that passes the check of its length. -/
theorem read_of_returns (ctl : SndCtl) (info : Tlv.SndCtlElemInfo) (id : SndCtlElemId) (alloc : Bool)
    (tlv xtlv : Words) (hid : id.numid = 0#32) (hprotocol : SNDRV_PROTOCOL_VERSION 2 0 4 ≤ ctl.protocol)
    (hinfo : ctl.elem_info id = (0, info)) (hnumid : info.id.numid ≠ 0#32)
    (hread : ctl.tlv_read info.id.numid (Tlv.clear_tlv tlv) = (0, xtlv)) (houter : (xtlv.word 1).toNat ≤ 1016) :
    do_read_tlv alloc ctl id tlv =
      if ¬ alloc then (-ENOMEM, Tlv.clear_tlv tlv)
      else
        let tlv := Tlv.memcpy (Tlv.clear_tlv tlv) xtlv ((xtlv.word 1).toNat + 8)
        if xtlv.word 0 = -1#32 then (- ENXIO, tlv) else (0, tlv) := by
  have hfits : ¬ (xtlv.word 1).toNat + 8 > (BitVec.ofNat 32 (TLV_SIZE * 4)).toNat := by
    have : (BitVec.ofNat 32 (TLV_SIZE * 4)).toNat = 1024 := rfl
    omega
  have hdo : Tlv.snd_ctl_tlv_do ctl alloc id (Tlv.clear_tlv tlv) (BitVec.ofNat 32 (TLV_SIZE * 4)) =
      if ¬ alloc then (-ENOMEM, Tlv.clear_tlv tlv)
      else (0, Tlv.memcpy (Tlv.clear_tlv tlv) xtlv ((xtlv.word 1).toNat + 8)) := by
    unfold Tlv.snd_ctl_tlv_do Tlv.snd_ctl_elem_info
    rw [if_pos hid, hinfo]
    dsimp only
    rw [if_neg (by simp), if_neg hnumid]
    unfold Tlv.hw_elem_tlv
    rw [if_neg (Int.not_lt.mpr hprotocol), hread]
    dsimp only
    rw [if_neg (not_not_intro rfl), if_neg hfits]
  have hzero := memcpy_word (Tlv.clear_tlv tlv) xtlv ((xtlv.word 1).toNat + 8) 0 (by omega)
  unfold do_read_tlv snd_ctl_elem_tlv_read
  rw [if_neg (by decide), hdo]
  cases alloc with
  | false => rfl
  | true =>
    rw [if_neg (by decide), if_neg (by decide)]
    dsimp only
    rw [hzero]
    simp only [ge_iff_le, Int.le_refl, true_and]

/-- The maps are those of the content, which the array has. -/
theorem query_of_returns (ctl_open : CtlOpen) (card : Int) (dev subdev : BitVec 32) (stream : Stream)
    (content : List (BitVec 32)) (h : Returns ctl_open card dev subdev stream content)
    (hlength : (content.getD 1 0#32).toNat + 8 ≤ 4 * content.length)
    (houter : (content.getD 1 0#32).toNat ≤ 1016) (alloc : Alloc) (stack : Nat → BitVec 32) :
    snd_pcm_query_chmaps_from_hw ctl_open alloc stack card dev subdev stream =
      if alloc.xtlv then query_tlv alloc (.ofList content) else .ok none := by
  obtain ⟨ctl, info, hopen, hprotocol, hinfo, hnumid, hread⟩ := h
  obtain ⟨xtlv, hxtlv, hwords⟩ := hread (Tlv.clear_tlv ⟨TLV_SIZE, stack⟩)
  have hzero : xtlv.word 0 = content.getD 0 0#32 := hwords 0 (by omega)
  have hone : xtlv.word 1 = content.getD 1 0#32 := hwords 1 (by omega)
  unfold snd_pcm_query_chmaps_from_hw do_ctl_chmap
  rw [hopen]
  dsimp only
  rw [read_of_returns ctl info _ alloc.xtlv _ xtlv rfl hprotocol hinfo hnumid hxtlv (hone ▸ houter)]
  cases alloc.xtlv with
  | false => rfl
  | true =>
    rw [if_neg (not_not_intro rfl), if_pos rfl]
    dsimp only
    by_cases hminus : xtlv.word 0 = -1#32
    · have hnone : query_tlv alloc (.ofList content) = .ok none := by
        have htype : (TlvArray.ofList content).word 0 = -1#32 := hzero.symm.trans hminus
        unfold query_tlv
        rw [read_ok _ 0 (Nat.le_add_left _ _), htype]
        rfl
      rw [if_pos hminus, hnone]
      rfl
    · rw [if_neg hminus]
      have hcopied := memcpy_word (Tlv.clear_tlv ⟨TLV_SIZE, stack⟩) xtlv ((xtlv.word 1).toNat + 8)
      have hagree : TlvArray.Agree
          ⟨(Tlv.memcpy (Tlv.clear_tlv ⟨TLV_SIZE, stack⟩) xtlv ((xtlv.word 1).toNat + 8)).word,
            ((Tlv.memcpy (Tlv.clear_tlv ⟨TLV_SIZE, stack⟩) xtlv ((xtlv.word 1).toNat + 8)).word 1).toNat + 8⟩
          (.ofList content) := by
        refine ⟨?_, fun i hi => ?_⟩
        · dsimp only
          rw [hcopied 1 (by omega), hone]
          rfl
        · dsimp only at hi ⊢
          rw [hcopied 1 (by omega)] at hi
          rw [hcopied i hi]
          rw [hone] at hi
          exact hwords i (by omega)
      exact query_tlv_congr hagree alloc

/-- A driver that has `content` for every control, with whatever is in the buffer behind it. -/
def handing_out (content : List (BitVec 32)) : CtlOpen := fun _ =>
  .ok
    { protocol := SNDRV_PROTOCOL_VERSION 2 0 7
      elem_info := fun id => (0, { id := { id with numid := 1#32 }, _access := 0#32, min := 0, max := 0 })
      tlv_read := fun _ buf => (0, ⟨buf.size, fun i => content.getD i (buf.word i)⟩) }

theorem returns_handing_out (content : List (BitVec 32)) (card : Int) (dev subdev : BitVec 32) (stream : Stream) :
    Returns (handing_out content) card dev subdev stream content := by
  have hprotocol : SNDRV_PROTOCOL_VERSION 2 0 4 ≤ SNDRV_PROTOCOL_VERSION 2 0 7 := by decide
  refine ⟨_, _, rfl, hprotocol, rfl, (by decide : (1#32) ≠ 0#32), fun buf => ⟨_, rfl, fun i hi => ?_⟩⟩
  rw [List.getD_eq_getElem _ _ hi]
  exact List.getD_eq_getElem _ _ hi

end Salsa.Chmap.Query
