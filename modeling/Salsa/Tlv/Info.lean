import Salsa.Tlv.Db
import Salsa.Ctl.ElemId

/-!
# Two ways to dB information

`snd_ctl_get_dB_range` and its siblings of `control.c` on one side, the volume items of
`mixer.c` on the other. The mixer reads the TLV of its element and keeps the dB block of it.
`get_tlv_info` parses a local buffer that nothing was read into.
-/

namespace Salsa.Tlv

open CInt Ctl

/-! ## The control device -/

def SNDRV_CTL_ELEM_ACCESS_TLV_READ : BitVec 32 := 0x10#32

/-- The part of `snd_ctl_elem_info_t` that matters for an integer element. -/
structure SndCtlElemInfo where
  id : SndCtlElemId
  _access : BitVec 32
  min : Int
  max : Int

/-- A control device and its ioctls, each with an errno, 0 for success. -/
structure SndCtl where
  protocol : Int
  elem_info : SndCtlElemId → Nat × SndCtlElemInfo
  /-- The words of the buffer before and after. -/
  tlv_read : BitVec 32 → Words → Nat × Words

def snd_ctl_elem_info (ctl : SndCtl) (id : SndCtlElemId) : Int × SndCtlElemInfo :=
  let (errno, info) := ctl.elem_info id
  (-(errno : Int), info)

def snd_ctl_elem_info_is_tlv_readable (info : SndCtlElemInfo) : Bool :=
  info._access &&& SNDRV_CTL_ELEM_ACCESS_TLV_READ != 0#32

/-- `memcpy` of `n` bytes, of little-endian words. -/
def memcpy (dst src : Words) (n : Nat) : Words :=
  ⟨dst.size, fun i =>
    if 4 * i + 4 ≤ n then src.word i
    else
      let mask := 1#32 <<< (8 * (n - 4 * i)) - 1#32
      (src.word i &&& mask) ||| (dst.word i &&& ~~~mask)⟩

/-- `hw_elem_tlv` with `SNDRV_CTL_IOCTL_TLV_READ`; returns the status and `tlv` after it. -/
def hw_elem_tlv (ctl : SndCtl) (alloc : Bool) (numid : BitVec 32) (tlv : Words)
    (tlv_size : BitVec 32) : Int × Words :=
  if ctl.protocol < SNDRV_PROTOCOL_VERSION 2 0 4 then (- ENXIO, tlv)
  else if ¬ alloc then (-ENOMEM, tlv)
  else
    let (errno, xtlv) := ctl.tlv_read numid tlv
    if errno ≠ 0 then (-(errno : Int), tlv)
    else if (xtlv.word 1).toNat + 8 > tlv_size.toNat then (-EFAULT, tlv)
    else (0, memcpy tlv xtlv ((xtlv.word 1).toNat + 8))

def snd_ctl_tlv_do (ctl : SndCtl) (alloc : Bool) (id : SndCtlElemId) (tlv : Words)
    (tlv_size : BitVec 32) : Int × Words :=
  if id.numid = 0#32 then
    let (err, info) := snd_ctl_elem_info ctl id
    if err < 0 then (err, tlv)
    else if info.id.numid = 0#32 then (-ENOENT, tlv)
    else hw_elem_tlv ctl alloc info.id.numid tlv tlv_size
  else hw_elem_tlv ctl alloc id.numid tlv tlv_size

def clear_tlv (tlv : Words) : Words :=
  ⟨tlv.size, fun i => if i = 0 then -1#32 else if i = 1 then 0#32 else tlv.word i⟩

def snd_ctl_elem_tlv_read (ctl : SndCtl) (alloc : Bool) (id : SndCtlElemId) (tlv : Words)
    (tlv_size : BitVec 32) : Int × Words :=
  if tlv_size < 8#32 then (-EINVAL, tlv)
  else
    let (err, tlv) := snd_ctl_tlv_do ctl alloc id (clear_tlv tlv) tlv_size
    if err ≥ 0 ∧ tlv.word 0 = -1#32 then (- ENXIO, tlv) else (err, tlv)

/-! ## The control level -/

def TEMP_TLV_SIZE : Nat := 4096

/-- `minval`, `maxval` and `tlv` of a `struct tlv_info`; `tlv` is NULL or a place in `buf`. -/
structure TlvInfo where
  minval : Int
  maxval : Int
  tlv : Option Words

/-- `stack` is what `buf` happens to hold. -/
def get_tlv_info (ctl : SndCtl) (stack : Nat → BitVec 32) (id : SndCtlElemId) : C (Int × TlvInfo) :=
  let (err, info) := snd_ctl_elem_info ctl id
  if err < 0 then return (err, ⟨0, 0, none⟩)
  else do
    let buf : Words := ⟨TEMP_TLV_SIZE, stack⟩
    let (err, tlv) ← snd_tlv_parse_dB_info buf (BitVec.ofNat 32 (4 * TEMP_TLV_SIZE))
    return (err, ⟨info.min, info.max, tlv.map buf.skip⟩)

/-- What the three functions do with their information. A NULL `tlv` is read from. -/
def with_tlv_info {α : Type} (ctl : SndCtl) (stack : Nat → BitVec 32) (id : SndCtlElemId)
    (f : Words → Int → Int → C (Int × Option α)) : C (Int × Option α) := do
  let (err, info) ← get_tlv_info ctl stack id
  if err < 0 then return (err, none)
  else
    match info.tlv with
    | none => .error .read
    | some tlv => f tlv info.minval info.maxval

def snd_ctl_get_dB_range (ctl : SndCtl) (stack : Nat → BitVec 32) (id : SndCtlElemId) :
    C (Int × Option (Int × Int)) :=
  with_tlv_info ctl stack id fun tlv minval maxval => snd_tlv_get_dB_range tlv minval maxval none

def snd_ctl_convert_to_dB (ctl : SndCtl) (stack : Nat → BitVec 32) (id : SndCtlElemId) (volume : Int) :
    C (Int × Option Int) :=
  with_tlv_info ctl stack id fun tlv minval maxval => snd_tlv_convert_to_dB tlv minval maxval volume

def snd_ctl_convert_from_dB (ctl : SndCtl) (stack : Nat → BitVec 32) (id : SndCtlElemId)
    (db_gain xdir : Int) : C (Int × Option Int) :=
  with_tlv_info ctl stack id fun tlv minval maxval =>
    snd_tlv_convert_from_dB tlv minval maxval db_gain xdir

/-! ## The mixer level -/

/-- `item->db_info` -/
inductive DbInfo where
  | null
  /-- `INVALID_DB_INFO` -/
  | invalid
  | block (tlv : Words)

/-- `snd_selem_vol_item_t`, with the id of its `head.helem`. -/
structure SndSelemVolItem where
  helem : SndCtlElemId
  raw_min : Int
  raw_max : Int
  db_info : DbInfo

/-- The outcomes of the allocations under `init_db_info`; the words of its buffer come as they are. -/
structure Alloc where
  tlv : Option (Nat → BitVec 32)
  xtlv : Bool
  db_info : Bool

/-- `free` of NULL, or of a place in the buffer, which must be its start. -/
def free : Option Nat → C Unit
  | none => return
  | some 0 => return
  | some (_ + 1) => .error .free

def DB_INFO_SIZE : Nat := 4096

/-- The label `error`. -/
def db_info_error (item : SndSelemVolItem) (tlv : Option Nat) : C (Int × SndSelemVolItem) := do
  free tlv
  return (-EINVAL, { item with db_info := .invalid })

def init_db_info (ctl : SndCtl) (alloc : Alloc) (item : SndSelemVolItem) : C (Int × SndSelemVolItem) :=
  match item.db_info with
  | .invalid => return (-EINVAL, item)
  | .block _ => return (0, item)
  | .null =>
    let (err, info) := snd_ctl_elem_info ctl item.helem
    if err < 0 then db_info_error item none
    else if ¬ snd_ctl_elem_info_is_tlv_readable info then db_info_error item none
    else
      match alloc.tlv with
      | none => db_info_error item none
      | some words =>
        let tlv_size := BitVec.ofNat 32 DB_INFO_SIZE
        let (err, buf) :=
          snd_ctl_elem_tlv_read ctl alloc.xtlv item.helem ⟨DB_INFO_SIZE / 4, words⟩ tlv_size
        if err < 0 then db_info_error item (some 0)
        else do
          -- From here on `tlv` is what the parser made of it.
          let (size, tlv) ← snd_tlv_parse_dB_info buf tlv_size
          if size ≤ 0 ∨ ¬ alloc.db_info then db_info_error item tlv
          else
            match tlv with
            | none => .error .read
            | some pos =>
              if 4 * pos + size.toNat > DB_INFO_SIZE then .error .read
              else
                free tlv
                return (0, { item with
                  db_info := .block ⟨size.toNat / 4, fun i => buf.word (pos + i)⟩ })

/-- What the functions on volume items do with their information; an item may be NULL. -/
def with_db_info {α : Type} (ctl : SndCtl) (alloc : Alloc) (item : Option SndSelemVolItem)
    (f : Words → Int → Int → C (Int × Option α)) : C (Int × Option α) :=
  match item with
  | none => return (-EINVAL, none)
  | some item => do
    let (err, item) ← init_db_info ctl alloc item
    if err < 0 then return (-EINVAL, none)
    else
      match item.db_info with
      | .block tlv => f tlv item.raw_min item.raw_max
      | _ => .error .read

def _snd_selem_vol_get_dB_range (ctl : SndCtl) (alloc : Alloc) (item : Option SndSelemVolItem) :
    C (Int × Option (Int × Int)) :=
  with_db_info ctl alloc item fun tlv raw_min raw_max => snd_tlv_get_dB_range tlv raw_min raw_max none

def _snd_selem_ask_vol_dB (ctl : SndCtl) (alloc : Alloc) (item : Option SndSelemVolItem) (value : Int) :
    C (Int × Option Int) :=
  with_db_info ctl alloc item fun tlv raw_min raw_max => snd_tlv_convert_to_dB tlv raw_min raw_max value

def _snd_selem_ask_dB_vol (ctl : SndCtl) (alloc : Alloc) (item : Option SndSelemVolItem)
    (dBvalue xdir : Int) : C (Int × Option Int) :=
  with_db_info ctl alloc item fun tlv raw_min raw_max =>
    snd_tlv_convert_from_dB tlv raw_min raw_max dBvalue xdir

/-- The volume item that `new_selem_vol_item` makes for an element. -/
def new_selem_vol_item (info : SndCtlElemInfo) : SndSelemVolItem :=
  { helem := info.id, raw_min := info.min, raw_max := info.max, db_info := .null }

/-! ## Agreement -/

/-- The driver knows the element and hands out the payload for it. -/
structure Answers (ctl : SndCtl) (info : SndCtlElemInfo) (payload : List (BitVec 32)) : Prop where
  protocol : SNDRV_PROTOCOL_VERSION 2 0 4 ≤ ctl.protocol
  numid : info.id.numid ≠ 0#32
  elem_info : ctl.elem_info info.id = (0, info)
  readable : snd_ctl_elem_info_is_tlv_readable info
  size : 4 * payload.length ≤ DB_INFO_SIZE
  tlv_read : ∀ buf : Words, payload.length ≤ buf.size →
    ctl.tlv_read info.id.numid buf = (0, ⟨buf.size, fun i => payload.getD i (buf.word i)⟩)

/-- The first dB block in a payload. -/
def first_dB_block (payload : List (BitVec 32)) : Option Words :=
  match snd_tlv_parse_dB_info (.ofList payload) (BitVec.ofNat 32 (4 * payload.length)) with
  | .ok (size, some pos) =>
    if size > 0 then some (.ofList ((payload.drop pos).take (size.toNat / 4))) else none
  | _ => none

def NegativeError {α : Type} (r : C (Int × Option α)) : Prop := ∃ err out, r = .ok (err, out) ∧ err < 0

/-- Both levels give what the conversions give for the first dB block, and an error without one,
whatever their buffers hold before. -/
def Agree (ctl : SndCtl) (info : SndCtlElemInfo) (payload : List (BitVec 32))
    (volume gain xdir : Int) : Prop :=
  ∀ stack words : Nat → BitVec 32,
    let alloc : Alloc := ⟨some words, true, true⟩
    let item := some (new_selem_vol_item info)
    match first_dB_block payload with
    | some block =>
      snd_ctl_get_dB_range ctl stack info.id = snd_tlv_get_dB_range block info.min info.max none ∧
      _snd_selem_vol_get_dB_range ctl alloc item = snd_tlv_get_dB_range block info.min info.max none ∧
      snd_ctl_convert_to_dB ctl stack info.id volume =
        snd_tlv_convert_to_dB block info.min info.max volume ∧
      _snd_selem_ask_vol_dB ctl alloc item volume =
        snd_tlv_convert_to_dB block info.min info.max volume ∧
      snd_ctl_convert_from_dB ctl stack info.id gain xdir =
        snd_tlv_convert_from_dB block info.min info.max gain xdir ∧
      _snd_selem_ask_dB_vol ctl alloc item gain xdir =
        snd_tlv_convert_from_dB block info.min info.max gain xdir
    | none =>
      NegativeError (snd_ctl_get_dB_range ctl stack info.id) ∧
      NegativeError (_snd_selem_vol_get_dB_range ctl alloc item) ∧
      NegativeError (snd_ctl_convert_to_dB ctl stack info.id volume) ∧
      NegativeError (_snd_selem_ask_vol_dB ctl alloc item volume) ∧
      NegativeError (snd_ctl_convert_from_dB ctl stack info.id gain xdir) ∧
      NegativeError (_snd_selem_ask_dB_vol ctl alloc item gain xdir)

/-- The result at the control level for an empty container on the stack. -/
theorem ctl_get_dB_range_of_zeros (ctl : SndCtl) (info : SndCtlElemInfo)
    (h : ctl.elem_info info.id = (0, info)) :
    snd_ctl_get_dB_range ctl (fun _ => 0#32) info.id = .ok (-EINVAL, none) := by
  unfold snd_ctl_get_dB_range with_tlv_info get_tlv_info snd_ctl_elem_info
  rw [h]
  dsimp only
  rw [if_neg (by decide), parse_empty_container _ _ rfl rfl]
  rfl

/-- The words of a block of gains from `0` to `maxdb`. -/
def minmax_words (maxdb : BitVec 32) (i : Nat) : BitVec 32 :=
  if i = 0 then SND_CTL_TLVT_DB_MINMAX else if i = 1 then 8#32 else if i = 3 then maxdb else 0#32

theorem ctl_get_dB_range_of_minmax (ctl : SndCtl) (info : SndCtlElemInfo) (maxdb : BitVec 32)
    (h : ctl.elem_info info.id = (0, info)) :
    snd_ctl_get_dB_range ctl (minmax_words maxdb) info.id = .ok (0, some (0, maxdb.toInt)) := by
  unfold snd_ctl_get_dB_range with_tlv_info get_tlv_info snd_ctl_elem_info
  rw [h]
  dsimp only
  rw [if_neg (by decide), parse_dB_block _ _ SND_CTL_TLVT_DB_MINMAX 8#32 rfl rfl (by decide) (by decide)]
  change snd_tlv_get_dB_range (Words.skip ⟨TEMP_TLV_SIZE, minmax_words maxdb⟩ 0) info.min info.max none = _
  exact get_dB_range_minmax _ _ _ none 0#32 maxdb rfl rfl rfl

/-! ## A volume from 0 to 10 in steps of 1 dB -/

def master : SndCtlElemInfo :=
  { id := { zeroed_id with numid := 1#32 }, _access := 0x13#32, min := 0, max := 10 }

def one_dB_steps : List (BitVec 32) := [SND_CTL_TLVT_DB_SCALE, 8#32, 0#32, 100#32]

/-- A device with `master` only. -/
def card : SndCtl :=
  { protocol := SNDRV_PROTOCOL_VERSION 2 0 7
    elem_info := fun id => if id = master.id then (0, master) else (2, master)
    tlv_read := fun _ buf => (0, ⟨buf.size, fun i => one_dB_steps.getD i (buf.word i)⟩) }

theorem card_answers : Answers card master one_dB_steps :=
  ⟨by decide, by decide, rfl, by decide, by decide, fun _ _ => rfl⟩

/-! ## No agreement -/

/-- No payload makes the levels agree: what the control level gives is up to the stack. -/
theorem never_agree (ctl : SndCtl) (info : SndCtlElemInfo) (payload : List (BitVec 32))
    (h : Answers ctl info payload) (volume gain xdir : Int) :
    ¬ Agree ctl info payload volume gain xdir := by
  intro hagree
  have hzeros := hagree (fun _ => 0#32) (fun _ => 0#32)
  have hminmax := hagree (minmax_words 100#32) (fun _ => 0#32)
  dsimp only at hzeros hminmax
  cases hblock : first_dB_block payload with
  | some block =>
    rw [hblock] at hzeros hminmax
    have heq := hzeros.1.trans hminmax.1.symm
    rw [ctl_get_dB_range_of_zeros ctl info h.elem_info,
      ctl_get_dB_range_of_minmax ctl info _ h.elem_info] at heq
    cases heq
  | none =>
    rw [hblock] at hminmax
    obtain ⟨err, out, hresult, hneg⟩ := hminmax.1
    rw [ctl_get_dB_range_of_minmax ctl info _ h.elem_info] at hresult
    cases hresult
    exact absurd hneg (Int.lt_irrefl 0)

theorem never_agree_master : ¬ Agree card master one_dB_steps 5 500 1 :=
  never_agree card master one_dB_steps card_answers 5 500 1

/-- The mixer reads the range, and the control level refuses. -/
theorem master_range_refused :
    Answers card master one_dB_steps ∧
      snd_ctl_get_dB_range card (fun _ => 0#32) master.id = .ok (-EINVAL, none) ∧
      _snd_selem_vol_get_dB_range card ⟨some fun _ => 0#32, true, true⟩
        (some (new_selem_vol_item master)) = .ok (0, some (0, 1000)) ∧
      ¬ Agree card master one_dB_steps 5 500 1 := by
  have hctl := ctl_get_dB_range_of_zeros card master rfl
  have hmixer : _snd_selem_vol_get_dB_range card ⟨some fun _ => 0#32, true, true⟩
      (some (new_selem_vol_item master)) = .ok (0, some (0, 1000)) := by
    rfl
  refine ⟨card_answers, hctl, hmixer, fun hagree => ?_⟩
  have h := hagree (fun _ => 0#32) fun _ => 0#32
  have hblock : (first_dB_block one_dB_steps).isSome := by decide +kernel
  obtain ⟨block, hblock⟩ := Option.isSome_iff_exists.mp hblock
  dsimp only at h
  rw [hblock] at h
  have heq := h.1.symm.trans hctl
  rw [← h.2.1, hmixer] at heq
  cases heq

end Salsa.Tlv
