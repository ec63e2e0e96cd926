import Salsa.Tlv.Info
import Salsa.Tlv.Outcomes

/-!
# The buffer of `init_db_info`

The variable `tlv` is the buffer that is to be freed, and what the parser writes the place of the dB block to. Only a
block at the start of the buffer leaves it as it was.
-/

namespace Salsa.Tlv.Buffer

open CInt Ctl

/-! ## The model -/

/-- A word of an allocation. -/
structure Pointer where
  alloc : Nat
  word : Nat
deriving DecidableEq

/-- `item->db_info`, with the bytes that it points to. -/
inductive DbInfo where
  | null
  | invalid
  | block (p : Pointer) (bytes : List (BitVec 8))

structure SndSelemVolItem where
  helem : SndCtlElemId
  db_info : DbInfo

structure Result where
  err : Int
  item : Option SndSelemVolItem
  /-- What `malloc` returned for the buffer; NULL as well where it was not called. -/
  buffer : Option Pointer
  /-- What `free` was called with, whether it may be or not. -/
  freed : List (Option Pointer)

/-- The `n` bytes from a word on. -/
def bytes (tlv : Words) (start n : Nat) : List (BitVec 8) :=
  (List.range n).map fun i => (tlv.word (start + i / 4)).extractLsb' (8 * (i % 4)) 8

/-- The label `error`. -/
def db_info_error (item : SndSelemVolItem) (buffer tlv : Option Pointer) : Result :=
  { err := -EINVAL, item := some { item with db_info := .invalid }, buffer, freed := [tlv] }

/-- The part of `init_db_info` after the read: the parser, and the copy of the block. -/
def copy_dB_block (alloc : Alloc) (next : Nat) (item : SndSelemVolItem) (buf : Words) : C Result := do
  let buffer : Option Pointer := some { alloc := next, word := 0 }
  let (size, start) ← snd_tlv_parse_dB_info buf (BitVec.ofNat 32 DB_INFO_SIZE)
  let tlv := start.map fun word => { alloc := next, word : Pointer }
  if size ≤ 0 then return db_info_error item buffer tlv
  else if ¬ alloc.db_info then return db_info_error item buffer tlv
  else
    match start with
    | none => .error .read
    | some start =>
      if 4 * start + size.toNat > DB_INFO_SIZE then .error .read
      else
        let db_info := .block { alloc := next + 1, word := 0 } (bytes buf start size.toNat)
        return { err := 0, item := some { item with db_info }, buffer, freed := [tlv] }

/-- The allocations have the numbers from `next` on. -/
def init_db_info (ctl : SndCtl) (alloc : Alloc) (next : Nat) (item : Option SndSelemVolItem) : C Result :=
  match item with
  | none => return { err := -EINVAL, item := none, buffer := none, freed := [] }
  | some item =>
    match item.db_info with
    | .invalid => return { err := -EINVAL, item := some item, buffer := none, freed := [] }
    | .block _ _ => return { err := 0, item := some item, buffer := none, freed := [] }
    | .null =>
      let (err, info) := snd_ctl_elem_info ctl item.helem
      if err < 0 then return db_info_error item none none
      else if ¬ snd_ctl_elem_info_is_tlv_readable info then return db_info_error item none none
      else
        match alloc.tlv with
        | none => return db_info_error item none none
        | some words =>
          let buffer : Option Pointer := some { alloc := next, word := 0 }
          let (err, buf) := snd_ctl_elem_tlv_read ctl alloc.xtlv item.helem ⟨DB_INFO_SIZE / 4, words⟩
            (BitVec.ofNat 32 DB_INFO_SIZE)
          if err < 0 then return db_info_error item buffer buffer
          else copy_dB_block alloc next item buf

/-! ## The property and the condition -/

/-- What the parser gets, if it comes to that. -/
def buffer_read (ctl : SndCtl) (alloc : Alloc) (item : Option SndSelemVolItem) : Option Words :=
  item.bind fun item =>
    match item.db_info with
    | .null =>
      let (err, info) := snd_ctl_elem_info ctl item.helem
      if err < 0 ∨ ¬ snd_ctl_elem_info_is_tlv_readable info then none
      else
        alloc.tlv.bind fun words =>
          let (err, buf) := snd_ctl_elem_tlv_read ctl alloc.xtlv item.helem ⟨DB_INFO_SIZE / 4, words⟩
            (BitVec.ofNat 32 DB_INFO_SIZE)
          if err < 0 then none else some buf
    | _ => none

/-- The item has a copy of the dB block that the parser finds. -/
def Copied (buf : Words) (item : Option SndSelemVolItem) : Prop :=
  ∃ size start vol p, snd_tlv_parse_dB_info buf (BitVec.ofNat 32 DB_INFO_SIZE) = .ok (size, some start) ∧
    0 < size ∧ item = some vol ∧ vol.db_info = .block p (bytes buf start size.toNat)

/-- The buffer is freed once if there is one, and nothing else is. -/
structure Releases (ctl : SndCtl) (alloc : Alloc) (item : Option SndSelemVolItem) (r : Result) : Prop where
  freed : r.freed.filterMap id = r.buffer.toList
  success : r.err = 0 →
    match buffer_read ctl alloc item with
    | none => r.item = item
    | some buf => Copied buf r.item

/-- What was read starts with a dB block, and not with a container or another TLV. -/
def StartsWithBlock (ctl : SndCtl) (alloc : Alloc) (item : Option SndSelemVolItem) : Prop :=
  ∀ buf, buffer_read ctl alloc item = some buf → is_dB_type (buf.word 0)

/-! ## What is read -/

theorem tlv_do_bounded (ctl : SndCtl) (alloc : Bool) (id : SndCtlElemId) (tlv buf : Words) (tlv_size : BitVec 32)
    (err : Int) (hread : snd_ctl_tlv_do ctl alloc id tlv tlv_size = (err, buf)) (herr : 0 ≤ err) :
    buf.size = tlv.size ∧ (buf.word 1).toNat + 8 ≤ tlv_size.toNat := by
  have hw (numid : BitVec 32) (h : hw_elem_tlv ctl alloc numid tlv tlv_size = (err, buf)) :
      buf.size = tlv.size ∧ (buf.word 1).toNat + 8 ≤ tlv_size.toNat := by
    unfold hw_elem_tlv at h
    split at h
    · cases h
      exact absurd herr (by decide)
    · split at h
      · cases h
        exact absurd herr (by decide)
      · dsimp only at h
        split at h
        · rename_i herrno
          cases h
          omega
        · split at h
          · cases h
            exact absurd herr (by decide)
          · rename_i hfits
            cases h
            refine ⟨rfl, ?_⟩
            unfold memcpy
            dsimp only
            rw [if_pos (by omega)]
            exact not_lt.mp hfits
  unfold snd_ctl_tlv_do at hread
  split at hread
  · dsimp only at hread
    split at hread
    · cases hread
      omega
    · split at hread
      · cases hread
        exact absurd herr (by decide)
      · exact hw _ hread
  · exact hw _ hread

theorem tlv_read_bounded (ctl : SndCtl) (alloc : Bool) (id : SndCtlElemId) (tlv buf : Words) (tlv_size : BitVec 32)
    (err : Int) (hread : snd_ctl_elem_tlv_read ctl alloc id tlv tlv_size = (err, buf)) (herr : 0 ≤ err) :
    buf.size = tlv.size ∧ (buf.word 1).toNat + 8 ≤ tlv_size.toNat := by
  unfold snd_ctl_elem_tlv_read at hread
  split at hread
  · cases hread
    exact absurd herr (by decide)
  · dsimp only at hread
    split at hread
    · cases hread
      exact absurd herr (by decide)
    · cases hread
      exact tlv_do_bounded ctl alloc id (clear_tlv tlv) _ tlv_size _ rfl herr

/-- A place that the parser finds is not before the one that it starts at. -/
theorem parse_from (buf : Words) (fuel : Nat) :
    (∀ pos size ret start, parse_dB_info buf fuel pos size = .ok (ret, some start) → pos ≤ start) ∧
      ∀ pos size ret start, parse_container buf fuel pos size = .ok (ret, some start) → pos ≤ start := by
  induction fuel with
  | zero =>
    refine ⟨fun pos size ret start h => ?_, fun pos size ret start h => ?_⟩
    · rw [parse_dB_info] at h
      cases h
    · rw [parse_container] at h
      cases h
  | succ fuel ih =>
    obtain ⟨hinfo, hcontainer⟩ := ih
    constructor
    · intro pos size ret start h
      simp only [parse_dB_info, bind_eq_ok] at h
      obtain ⟨type, -, bytes, -, h⟩ := h
      split_ifs at h
      · cases h
      · have := hcontainer _ _ _ _ h
        omega
      · cases h
        exact le_refl _
      · cases h
    · intro pos size ret start h
      rw [parse_container] at h
      split_ifs at h
      · simp only [bind_eq_ok] at h
        obtain ⟨⟨err, block⟩, hcall, h⟩ := h
        simp only at h
        split_ifs at h
        · cases h
          exact hinfo _ _ _ _ hcall
        · simp only [bind_eq_ok] at h
          obtain ⟨bytes, -, h⟩ := h
          have := hcontainer _ _ _ _ h
          omega
      · cases h

/-- What the parser finds is not at the start, unless that is a dB block. -/
theorem parse_behind (buf : Words) (tlv_size : BitVec 32) (ret : Int) (start : Nat)
    (hdB : ¬ is_dB_type (buf.word 0)) (h : snd_tlv_parse_dB_info buf tlv_size = .ok (ret, some start)) :
    2 ≤ start := by
  unfold snd_tlv_parse_dB_info at h
  simp only [parse_dB_info, bind_eq_ok] at h
  obtain ⟨type, htype, bytes, -, h⟩ := h
  obtain ⟨rfl, -⟩ := read_eq_ok _ _ _ htype
  split_ifs at h
  · cases h
  · exact (parse_from buf _).2 _ _ _ _ h
  · cases h

/-! ## What is freed -/

variable (ctl : SndCtl) (alloc : Alloc) (next : Nat) (item : Option SndSelemVolItem)

omit ctl alloc next item in
theorem error_err (vol : SndSelemVolItem) (buffer tlv : Option Pointer) : (db_info_error vol buffer tlv).err ≠ 0 := by
  show -EINVAL ≠ (0 : Int)
  decide

theorem init_unread (h : buffer_read ctl alloc item = none) :
    ∃ r, init_db_info ctl alloc next item = .ok r ∧ Releases ctl alloc item r := by
  have hreleases (r : Result) (hfreed : r.freed.filterMap id = r.buffer.toList) (hitem : r.err = 0 → r.item = item) :
      Releases ctl alloc item r := by
    refine ⟨hfreed, fun herr => ?_⟩
    rw [h]
    exact hitem herr
  have herror (vol : SndSelemVolItem) (p : Option Pointer) : Releases ctl alloc item (db_info_error vol p p) := by
    apply hreleases
    · cases p <;> rfl
    · exact fun herr => absurd herr (error_err vol p p)
  cases item with
  | none => exact ⟨_, rfl, hreleases _ rfl fun _ => rfl⟩
  | some vol =>
    unfold init_db_info
    dsimp only
    split
    · exact ⟨_, rfl, hreleases _ rfl fun _ => rfl⟩
    · exact ⟨_, rfl, hreleases _ rfl fun _ => rfl⟩
    · rename_i hnull
      unfold buffer_read at h
      rw [Option.bind_some, hnull] at h
      dsimp only at h ⊢
      split
      · exact ⟨_, rfl, herror vol none⟩
      · rename_i hinfo
        split
        · exact ⟨_, rfl, herror vol none⟩
        · rename_i hreadable
          rw [if_neg (not_or.mpr ⟨hinfo, hreadable⟩)] at h
          split
          · exact ⟨_, rfl, herror vol none⟩
          · rename_i words hwords
            rw [hwords, Option.bind_some] at h
            split
            · exact ⟨_, rfl, herror vol _⟩
            · rename_i herr
              rw [if_neg herr] at h
              cases h

theorem init_read (buf : Words) (h : buffer_read ctl alloc item = some buf) :
    ∃ vol, init_db_info ctl alloc next item = copy_dB_block alloc next vol buf ∧
      buf.size = DB_INFO_SIZE / 4 ∧ (buf.word 1).toNat + 8 ≤ DB_INFO_SIZE := by
  cases item with
  | none => cases h
  | some vol =>
    refine ⟨vol, ?_⟩
    unfold init_db_info
    unfold buffer_read at h
    rw [Option.bind_some] at h
    dsimp only
    split at h
    · rename_i hnull
      rw [hnull]
      dsimp only at h ⊢
      split at h
      · cases h
      · rename_i hinfo
        rw [not_or] at hinfo
        obtain ⟨words, hwords, h⟩ := Option.bind_eq_some_iff.mp h
        rw [if_neg hinfo.1, if_neg hinfo.2, hwords]
        dsimp only at h ⊢
        split at h
        · cases h
        · rename_i herr
          cases h
          rw [if_neg herr]
          exact ⟨rfl, tlv_read_bounded ctl alloc.xtlv vol.helem ⟨DB_INFO_SIZE / 4, words⟩ _
            (BitVec.ofNat 32 DB_INFO_SIZE) _ rfl (not_lt.mp herr)⟩
    · cases h

/-- What goes to `free` is what the parser leaves, with the copy or without. -/
theorem copy_dB_block_ok (vol : SndSelemVolItem) (buf : Words) (r : Result)
    (h : copy_dB_block alloc next vol buf = .ok r) :
    ∃ size start, snd_tlv_parse_dB_info buf (BitVec.ofNat 32 DB_INFO_SIZE) = .ok (size, start) ∧
      r.buffer = some { alloc := next, word := 0 } ∧ r.freed = [start.map fun word => { alloc := next, word }] := by
  unfold copy_dB_block at h
  obtain ⟨⟨size, start⟩, hparse, h⟩ := (bind_eq_ok _ _ _).mp h
  refine ⟨size, start, hparse, ?_⟩
  dsimp only at h
  split at h
  · cases h
    exact ⟨rfl, rfl⟩
  · split at h
    · cases h
      exact ⟨rfl, rfl⟩
    · cases start with
      | none => cases h
      | some start =>
        dsimp only at h
        split at h
        · cases h
        · cases h
          exact ⟨rfl, rfl⟩

theorem parse_first_block (buf : Words) (hsize : buf.size = DB_INFO_SIZE / 4)
    (hfits : (buf.word 1).toNat + 8 ≤ DB_INFO_SIZE) (hdB : is_dB_type (buf.word 0)) :
    snd_tlv_parse_dB_info buf (BitVec.ofNat 32 DB_INFO_SIZE) = .ok (((buf.word 1).toNat + 8 : Nat), some 0) := by
  unfold DB_INFO_SIZE at hsize hfits
  have hmisfit : ¬ buf.word 1 > BitVec.ofNat 32 4096 - 8#32 := by
    rw [gt_iff_lt, BitVec.lt_def, not_lt]
    show (buf.word 1).toNat ≤ 4088
    omega
  unfold DB_INFO_SIZE
  rw [parse_dB_block buf _ (buf.word 0) (buf.word 1) (buf.read_ok 0 (by omega)) (buf.read_ok 1 (by omega)) hmisfit hdB]
  have hint : IsInt ((buf.word 1).toNat + 8) := ⟨by omega, by omega⟩
  rw [hint.cut]
  rfl

theorem copy_first_block (vol : SndSelemVolItem) (buf : Words) (hsize : buf.size = DB_INFO_SIZE / 4)
    (hfits : (buf.word 1).toNat + 8 ≤ DB_INFO_SIZE) (hdB : is_dB_type (buf.word 0)) :
    ∃ r, copy_dB_block alloc next vol buf = .ok r ∧ (r.err = 0 → Copied buf r.item) := by
  have hparse := parse_first_block buf hsize hfits hdB
  unfold copy_dB_block
  rw [hparse, ok_bind]
  dsimp only
  split
  · exact ⟨_, rfl, fun herr => absurd herr (error_err _ _ _)⟩
  · rename_i hpos
    split
    · exact ⟨_, rfl, fun herr => absurd herr (error_err _ _ _)⟩
    · rw [if_neg (by rw [Int.toNat_natCast]; omega)]
      exact ⟨_, rfl, fun _ => ⟨_, 0, _, _, hparse, not_le.mp hpos, rfl, rfl⟩⟩

/-- The buffer is freed, and the block kept, just when the TLV starts with that block, if one is read. -/
theorem buffer_released_iff :
    (∃ r, init_db_info ctl alloc next item = .ok r ∧ Releases ctl alloc item r) ↔
      StartsWithBlock ctl alloc item := by
  cases hread : buffer_read ctl alloc item with
  | none => exact iff_of_true (init_unread ctl alloc next item hread) fun buf h => by rw [hread] at h; cases h
  | some buf =>
    obtain ⟨vol, hinit, hsize, hfits⟩ := init_read ctl alloc next item buf hread
    rw [hinit]
    unfold StartsWithBlock
    rw [hread]
    constructor
    · rintro ⟨r, hr, hreleases⟩ buf' hbuf
      cases hbuf
      obtain ⟨size, start, hparse, hbuffer, hfreed⟩ := copy_dB_block_ok alloc next vol buf r hr
      have hplace := hreleases.freed
      rw [hbuffer, hfreed] at hplace
      cases start with
      | none => cases hplace
      | some start =>
        obtain rfl : start = 0 := by simpa using hplace
        by_contra hdB
        exact absurd (parse_behind buf _ size 0 hdB hparse) (by decide)
    · intro hblock
      obtain ⟨r, hr, hcopied⟩ := copy_first_block alloc next vol buf hsize hfits (hblock buf rfl)
      refine ⟨r, hr, ?_, fun herr => ?_⟩
      · obtain ⟨size, start, hparse, hbuffer, hfreed⟩ := copy_dB_block_ok alloc next vol buf r hr
        rw [parse_first_block buf hsize hfits (hblock buf rfl)] at hparse
        cases hparse
        rw [hbuffer, hfreed]
        rfl
      · rw [hread]
        exact hcopied herr

/-! A dB scale in a container. -/

def scale_in_container : List (BitVec 32) :=
  [SND_CTL_TLVT_CONTAINER, 16#32, SND_CTL_TLVT_DB_SCALE, 8#32, 0#32, 100#32]

def container_card : SndCtl :=
  { card with tlv_read := fun _ buf => (0, ⟨buf.size, fun i => scale_in_container.getD i (buf.word i)⟩) }

def volume_item : Option SndSelemVolItem := some { helem := master.id, db_info := .null }

/-- The place of the scale is freed, and not the buffer. -/
theorem container_not_released : ¬ ∃ r, init_db_info container_card ⟨some fun _ => 0#32, true, true⟩ 0 volume_item =
    .ok r ∧ Releases container_card ⟨some fun _ => 0#32, true, true⟩ volume_item r := by
  rintro ⟨r, hr, hreleases⟩
  have hshown : (init_db_info container_card ⟨some fun _ => 0#32, true, true⟩ 0 volume_item).toOption.map
      (fun r => (r.buffer, r.freed)) = some (some ⟨0, 0⟩, [some ⟨0, 2⟩]) := by decide +kernel
  rw [hr] at hshown
  obtain ⟨hbuffer, hfreed⟩ := Prod.mk.inj (Option.some.inj hshown)
  have hplace := hreleases.freed
  rw [hbuffer, hfreed] at hplace
  exact absurd hplace (by decide)

/-! ## With a `free` that checks -/

def of_db_info : Tlv.DbInfo → DbInfo
  | .null => .null
  | .invalid => .invalid
  | .block _ => .block { alloc := 0, word := 0 } []

/-- `Tlv.init_db_info` goes the same way, and stops at what may not be freed. -/
theorem init_db_info_checked (vol : Tlv.SndSelemVolItem) :
    Prod.fst <$> Tlv.init_db_info ctl alloc vol =
      (do
        let r ← init_db_info ctl alloc next (some { helem := vol.helem, db_info := of_db_info vol.db_info })
        r.freed.forM fun p => free (p.map Pointer.word)
        return r.err) := by
  unfold Tlv.init_db_info init_db_info of_db_info
  cases vol.db_info with
  | invalid => rfl
  | block _ => rfl
  | null =>
    dsimp only
    split
    · rfl
    · split
      · rfl
      · cases alloc.tlv with
        | none => rfl
        | some words =>
          dsimp only
          split
          · rfl
          · unfold copy_dB_block
            cases snd_tlv_parse_dB_info (snd_ctl_elem_tlv_read ctl alloc.xtlv vol.helem ⟨DB_INFO_SIZE / 4, words⟩
              (BitVec.ofNat 32 DB_INFO_SIZE)).2 (BitVec.ofNat 32 DB_INFO_SIZE) with
            | error fault => rfl
            | ok found =>
              obtain ⟨size, start⟩ := found
              simp only [ok_bind]
              by_cases hnone : size ≤ 0 ∨ ¬ alloc.db_info
              · rw [if_pos hnone]
                split
                · rcases start with _ | _ | start <;> rfl
                · rename_i hsize
                  rw [if_pos (hnone.resolve_left hsize)]
                  rcases start with _ | _ | start <;> rfl
              · rw [if_neg hnone, if_neg (not_or.mp hnone).1, if_neg (not_or.mp hnone).2]
                cases start with
                | none => rfl
                | some start =>
                  dsimp only
                  split
                  · rfl
                  · cases start <;> rfl

end Salsa.Tlv.Buffer
